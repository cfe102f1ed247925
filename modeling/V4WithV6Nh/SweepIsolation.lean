import V4WithV6Nh.Serve
import V4WithV6Nh.TrackedRoutes

/-!
# Which Failures a Sweep Isolates

A sweep evaluates one host after the other. Of the calls that an evaluation makes, the dump
of the ND cache, the replacement of the route and the deletion of the neighbour are guarded:
if one fails, the host is left behind and the sweep goes on. The link lookup and the dump of
the IPv6 routes are not. If one of these fails, the exception ends the sweep, and the loop of
`serve` with it.

An evaluation depends on the entry of its own host only; `plan` is what it makes of it. The
sweep applies the plans, in the order of the table.

## Main results

* `reconcileAll_ok_iff`, `reconcileAll_get`, `reconcileAll_route`: what a sweep does, by the
  plans of the hosts.
* `isolates_iff`: the loop goes on, and every host without a failing call ends as it would
  without any failure, exactly if no unguarded call fails and no failure loses the last
  route for the address of such a host.
* `spared_of_distinct`: with distinct addresses there is no such route to lose.
-/

namespace V4WithV6Nh.Manager

/-! ### Plans -/

/-- The same event without failures. -/
def Env.calm (env : Env) : Env := { env with fault := fun _ => none }

/-- The index of an interface whose lookup does not fail. -/
theorem index_of_lookup {env : Env} {mac : Text} (hlink : env.fault (.linkLookup mac) = none)
    (iface : Text) : index env mac iface = .ok (linkLookup env.links iface) := by
  rw [index, hlink]

section Plan

variable [UnicodeTables]

/-- What `evaluate` makes of the entry of a host, and the route that it asks for. -/
def plan (env : Env) (mac : Text) (h : Host) : Except NetlinkError (Host × Option Route4) :=
  match index env mac h.iface with
  | .error e => .error e
  | .ok none => .ok (h, none)
  | .ok (some idx) =>
      match bestNexthop env idx mac with
      | .error e => .error e
      | .ok (none, gua) => .ok ((solicit env mac none gua h).1, none)
      | .ok (some n, gua) =>
          let h' := (solicit env mac (some n) gua h).1
          if h'.nh = some n then .ok (h', none)
          else .ok ({ h' with nh := some n }, some (hostRoute h'.ip4 idx n))

/-- One of the two calls that are not guarded fails for the host. -/
def Raises (env : Env) (mac : Text) (h : Host) : Prop :=
  env.fault (.linkLookup mac) ≠ none ∨
    linkLookup env.links h.iface ≠ none ∧ env.fault (.getRoutes mac) ≠ none

/-- The calls that `evaluate` makes for a host, up to one that raises. -/
def ownCalls (env : Env) (mac : Text) (h : Host) : List Call :=
  .linkLookup mac ::
    match index env mac h.iface with
    | .ok (some _) =>
        .getRoutes mac ::
          if env.fault (.getRoutes mac) = none then
            .getNeighbours mac ::
              match plan env mac h with
              | .ok (_, some _) =>
                  .routeReplace mac ::
                    if env.fault (.routeReplace mac) = none then [.neighDel mac] else []
              | _ => []
          else []
    | _ => []

/-- None of the calls of the host fails. -/
def Unharmed (env : Env) (mac : Text) (h : Host) : Prop :=
  ∀ c ∈ ownCalls env mac h, env.fault c = none

/-- The route that a sweep programs for a host. -/
def granted (env : Env) (mac : Text) (h : Host) : Option Route4 :=
  match plan env mac h with
  | .ok (_, some r) => if env.fault (.routeReplace mac) = none then some r else none
  | _ => none

variable {env : Env} {mac m ip4 : Text} {w : World} {h h' : Host} {r : Option Route4}

/-- A plan fails if one of the two calls does. -/
theorem plan_error_iff : (∃ e, plan env mac h = .error e) ↔ Raises env mac h := by
  rw [plan, Raises, index]
  cases env.fault (.linkLookup mac) with
  | some e => exact ⟨fun _ => .inl (Option.some_ne_none e), fun _ => ⟨e, rfl⟩⟩
  | none =>
      simp only
      cases linkLookup env.links h.iface with
      | none => simp
      | some idx =>
          simp only [bestNexthop]
          cases env.fault (.getRoutes mac) with
          | some e => simp
          | none =>
              simp only [ne_eq, not_true_eq_false, and_false, or_false, iff_false]
              rintro ⟨e, he⟩
              split at he
              · rename_i hbest
                split at hbest <;> cases hbest
              · cases he
              · split at he <;> cases he

/-- A plan that fails is the exception of the evaluation. -/
theorem evaluate_of_plan_error {e : NetlinkError} (hh : w.hosts.get mac = some h)
    (hp : plan env mac h = .error e) : evaluate env mac w = (.error e, w) := by
  rw [plan] at hp
  rw [evaluate, hh]
  simp only
  cases hi : index env mac h.iface with
  | error e' =>
      rw [hi] at hp
      rw [Except.error.inj hp]
  | ok i =>
      rw [hi] at hp
      cases i with
      | none => cases hp
      | some idx =>
          simp only at hp ⊢
          cases hb : bestNexthop env idx mac with
          | error e' =>
              rw [hb] at hp
              rw [Except.error.inj hp]
          | ok best =>
              obtain ⟨nh, gua⟩ := best
              rw [hb] at hp
              cases nh with
              | none => cases hp
              | some n =>
                  simp only at hp
                  split at hp <;> cases hp

/-- The route of a plan is for the address of the host. -/
theorem exists_hostRoute_of_plan {r : Route4} (hp : plan env mac h = .ok (h', some r)) :
    ∃ idx n, r = hostRoute h.ip4 idx n := by
  rw [plan] at hp
  split at hp
  · cases hp
  · cases hp
  · rename_i idx _
    split at hp
    · cases hp
    · cases hp
    · rename_i n gua _
      simp only at hp
      split at hp
      · cases hp
      · have hip : (solicit env mac (some n) gua h).1.ip4 = h.ip4 := by rw [solicit_fst]
        rw [hip] at hp
        exact ⟨idx, n, (Option.some.inj (Prod.mk.inj (Except.ok.inj hp)).2).symm⟩

/-- A sweep programs the route that is asked for, unless the request fails. -/
theorem granted_of_plan (hp : plan env mac h = .ok (h', r)) :
    granted env mac h = r.filter fun _ => decide (env.fault (.routeReplace mac) = none) := by
  rw [granted, hp]
  cases r with
  | none => rfl
  | some r => simp [Option.filter]

/-- **An evaluation applies the plan** of its host. -/
theorem evaluate_of_plan (hh : w.hosts.get mac = some h) (hp : plan env mac h = .ok (h', r)) :
    (evaluate env mac w).1 = .ok () ∧ (evaluate env mac w).2.hosts.get mac = some h' ∧
      (evaluate env mac w).2.tables.fib =
        match granted env mac h with
        | none => w.tables.fib
        | some r => upsertFirst r.sameKey r w.tables.fib := by
  rw [granted_of_plan hp]
  rw [plan] at hp
  rw [evaluate, hh]
  simp only
  cases hi : index env mac h.iface with
  | error e =>
      rw [hi] at hp
      cases hp
  | ok i =>
      rw [hi] at hp
      cases i with
      | none =>
          obtain ⟨rfl, rfl⟩ := Prod.mk.inj (Except.ok.inj hp)
          exact ⟨rfl, hh, rfl⟩
      | some idx =>
          simp only at hp ⊢
          cases hb : bestNexthop env idx mac with
          | error e =>
              rw [hb] at hp
              cases hp
          | ok best =>
              obtain ⟨nh, gua⟩ := best
              rw [hb] at hp
              cases nh with
              | none =>
                  obtain ⟨rfl, rfl⟩ := Prod.mk.inj (Except.ok.inj hp)
                  exact ⟨rfl, OrderedDict.get_set_self _ _ _, rfl⟩
              | some n =>
                  simp only at hp
                  refine ⟨rfl, ?_⟩
                  simp only [follow]
                  split at hp
                  · rename_i hsame
                    obtain ⟨rfl, rfl⟩ := Prod.mk.inj (Except.ok.inj hp)
                    rw [if_pos hsame]
                    exact ⟨OrderedDict.get_set_self _ _ _, rfl⟩
                  · rename_i hsame
                    obtain ⟨rfl, rfl⟩ := Prod.mk.inj (Except.ok.inj hp)
                    rw [if_neg hsame]
                    refine ⟨OrderedDict.get_set_self _ _ _, ?_⟩
                    simp only [install_fib]
                    cases env.fault (.routeReplace mac) with
                    | none => rfl
                    | some e => rfl

end Plan

/-! ### Sweeps -/

/-- The route of an address is in the slot of no other. -/
theorem find?_slot_upsertFirst_of_ne {ip4 ip4' : Text} (hne : ip4 ≠ ip4') (idx : ℕ) (nh : IPv6)
    (fib : List Route4) :
    (upsertFirst (slot ip4') (hostRoute ip4' idx nh) fib).find? (slot ip4) =
      fib.find? (slot ip4) := by
  have hother : ∀ x, slot ip4' x = true → slot ip4 x = false := by
    intro x hx
    refine (Bool.not_eq_true _).mp fun hx' => hne ?_
    exact (dst_of_slot hx').symm.trans (dst_of_slot hx)
  rw [← List.head?_filter, ← List.head?_filter,
    (filter_upsertFirst_iff (hother _ (slot_hostRoute _ _ _))).mpr fun x hx =>
      hother x (List.find?_some hx)]

section Sweep

variable [UnicodeTables] {env : Env} {mac m ip4 : Text} {macs : List Text} {w : World}
  {h h' : Host} {r : Option Route4}

/-- A host that does not raise has a plan. -/
theorem exists_plan (hr : ¬ Raises env mac h) : ∃ h' r, plan env mac h = .ok (h', r) := by
  cases hp : plan env mac h with
  | error e => exact absurd (plan_error_iff.mp ⟨e, hp⟩) hr
  | ok p => exact ⟨p.1, p.2, rfl⟩

/-- An evaluation raises if its host does. -/
theorem evaluate_ok_iff : (evaluate env mac w).1 = .ok () ↔
    ∀ h, w.hosts.get mac = some h → ¬ Raises env mac h := by
  constructor
  · intro hok h hh hr
    obtain ⟨e, he⟩ := plan_error_iff.mpr hr
    rw [evaluate_of_plan_error hh he] at hok
    cases hok
  · intro hno
    cases hh : w.hosts.get mac with
    | none => rw [evaluate_of_get_eq_none hh]
    | some h =>
        obtain ⟨h', r, hp⟩ := exists_plan (hno h hh)
        exact (evaluate_of_plan hh hp).1

/-- A sweep raises if one of its hosts does. -/
theorem evaluateEach_ok_iff (hnodup : macs.Nodup) : (evaluateEach env macs w).1 = .ok () ↔
    ∀ mac ∈ macs, ∀ h, w.hosts.get mac = some h → ¬ Raises env mac h := by
  induction macs generalizing w with
  | nil => exact ⟨fun _ mac hmac => (List.not_mem_nil hmac).elim, fun _ => rfl⟩
  | cons mac macs ih =>
      obtain ⟨hmac, hnodup⟩ := List.nodup_cons.mp hnodup
      rw [List.forall_mem_cons, ← evaluate_ok_iff]
      by_cases hok : (evaluate env mac w).1 = .ok ()
      · have hsame : ∀ m ∈ macs, (evaluate env mac w).2.hosts.get m = w.hosts.get m :=
          fun m hm => evaluate_get_of_ne fun heq => hmac (heq ▸ hm)
        rw [evaluateEach_of_ok hok, ih hnodup]
        refine ⟨fun hno => ⟨hok, fun m hm h hh => hno m hm h ((hsame m hm).trans hh)⟩,
          fun hno m hm h hh => hno.2 m hm h ((hsame m hm).symm.trans hh)⟩
      · rw [evaluateEach_of_not_ok hok]
        exact ⟨fun h => absurd h hok, fun h => absurd h.1 hok⟩

/-- A sweep leaves the entries alone that are not on its list. -/
theorem evaluateEach_get_of_notMem (hmac : mac ∉ macs) :
    (evaluateEach env macs w).2.hosts.get mac = w.hosts.get mac := by
  refine evaluateEach_invariant (I := fun w' => w'.hosts.get mac = w.hosts.get mac)
    (fun m hm w' hget => ?_) rfl
  have hne : mac ≠ m := fun heq => hmac (heq ▸ hm)
  exact (evaluate_get_of_ne hne).trans hget

/-- **Every entry of a sweep that did not raise** is what its plan says. -/
theorem evaluateEach_get (hnodup : macs.Nodup) (hok : (evaluateEach env macs w).1 = .ok ())
    (hmac : mac ∈ macs) (hh : w.hosts.get mac = some h) (hp : plan env mac h = .ok (h', r)) :
    (evaluateEach env macs w).2.hosts.get mac = some h' := by
  obtain ⟨before, after, hbefore, hafter, hsweep⟩ := evaluateEach_once hok hnodup hmac
  have hh' := (@evaluateEach_get_of_notMem _ env mac before w hbefore).trans hh
  rw [hsweep, evaluateEach_get_of_notMem hafter]
  exact (evaluate_of_plan hh' hp).2.1

/-- The route that an evaluation of a host grants to an address. -/
def grantedTo (env : Env) (ip4 mac : Text) (h : Host) : Option Route4 :=
  if h.ip4 = ip4 then granted env mac h else none

/-- An evaluation changes the route of an address if it grants one to it. -/
theorem evaluate_route (hh : w.hosts.get mac = some h) (hp : plan env mac h = .ok (h', r))
    (ip4 : Text) :
    (evaluate env mac w).2.tables.fib.find? (slot ip4) =
      (grantedTo env ip4 mac h).or (w.tables.fib.find? (slot ip4)) := by
  rw [(evaluate_of_plan hh hp).2.2, grantedTo]
  cases hg : granted env mac h with
  | none => simp
  | some r' =>
      obtain ⟨idx, n, rfl⟩ : ∃ idx n, r' = hostRoute h.ip4 idx n := by
        rw [granted_of_plan hp] at hg
        obtain ⟨rfl, -⟩ := Option.filter_eq_some_iff.mp hg
        exact exists_hostRoute_of_plan hp
      have hkey : (hostRoute h.ip4 idx n).sameKey = slot h.ip4 := rfl
      simp only [hkey]
      by_cases heq : h.ip4 = ip4
      · subst heq
        rw [if_pos rfl, find?_upsertFirst (slot_hostRoute _ _ _), Option.some_or]
      · rw [if_neg heq, Option.none_or]
        exact find?_slot_upsertFirst_of_ne (fun h => heq h.symm) idx n _

/-- The routes that a sweep over the MACs grants to an address, in order. -/
def grants (env : Env) (ip4 : Text) (w : World) (macs : List Text) : List Route4 :=
  macs.filterMap fun mac => (w.hosts.get mac).bind (grantedTo env ip4 mac)

theorem grants_cons (env : Env) (ip4 : Text) (w : World) (mac : Text) (macs : List Text) :
    grants env ip4 w (mac :: macs) =
      ((w.hosts.get mac).bind (grantedTo env ip4 mac)).toList ++ grants env ip4 w macs := by
  rw [grants, List.filterMap_cons]
  cases (w.hosts.get mac).bind (grantedTo env ip4 mac) <;> rfl

/-- **The route of an address** after a sweep that did not raise is the last one granted. -/
theorem evaluateEach_route (hnodup : macs.Nodup) (hok : (evaluateEach env macs w).1 = .ok ())
    (ip4 : Text) :
    (evaluateEach env macs w).2.tables.fib.find? (slot ip4) =
      (grants env ip4 w macs).getLast?.or (w.tables.fib.find? (slot ip4)) := by
  induction macs generalizing w with
  | nil => rfl
  | cons mac macs ih =>
      obtain ⟨hmac, hnodup⟩ := List.nodup_cons.mp hnodup
      have hfirst := evaluate_ok_of_evaluateEach hok
      have hrest : grants env ip4 (evaluate env mac w).2 macs = grants env ip4 w macs :=
        List.filterMap_congr fun m hm => by
          have hne : m ≠ mac := by
            rintro rfl
            exact hmac hm
          rw [evaluate_get_of_ne hne]
      rw [evaluateEach_of_ok hfirst] at hok ⊢
      rw [ih hnodup hok, hrest, grants_cons, List.getLast?_append, Option.or_assoc]
      refine congrArg _ ?_
      cases hh : w.hosts.get mac with
      | none =>
          rw [evaluate_of_get_eq_none hh]
          rfl
      | some h =>
          obtain ⟨h', r, hp⟩ := exists_plan (evaluate_ok_iff.mp hfirst h hh)
          rw [evaluate_route hh hp, Option.bind_some]
          cases grantedTo env ip4 mac h <;> rfl

end Sweep

/-! ### With and without failures -/

section Calm

variable {env : Env} {mac : Text} {w : World} {h : Host}

/-- The dump of the ND cache and the replacement of the route do not fail. -/
def answered (env : Env) (mac : Text) : Bool :=
  decide (env.fault (.getNeighbours mac) = none ∧ env.fault (.routeReplace mac) = none)

/-- Without failures nothing raises. -/
theorem not_raises_calm : ¬ Raises env.calm mac h := by
  rintro (h | ⟨-, h⟩)
  · exact h rfl
  · exact h rfl

variable [UnicodeTables]

/-- Without a failing dump the best next hop is that of the event without failures. -/
theorem bestNexthop_calm {idx : ℕ} (hroutes : env.fault (.getRoutes mac) = none)
    (hneigh : env.fault (.getNeighbours mac) = none) :
    bestNexthop env idx mac = bestNexthop env.calm idx mac := by
  have hcache : cache env idx mac = cache env.calm idx mac := by
    rw [cache, cache, hneigh]
    rfl
  have hprefix : prefixOf env idx = prefixOf env.calm idx := rfl
  have hroutes' : env.calm.fault (.getRoutes mac) = none := rfl
  rw [bestNexthop, bestNexthop, hroutes, hroutes', hcache, hprefix]

/-- With a failing dump of the ND cache there is no next hop. -/
theorem bestNexthop_of_neighbours_fail (idx : ℕ) (hroutes : env.fault (.getRoutes mac) = none)
    (hneigh : env.fault (.getNeighbours mac) ≠ none) :
    ∃ gua, bestNexthop env idx mac = .ok (none, gua) := by
  obtain ⟨e, he⟩ := Option.ne_none_iff_exists'.mp hneigh
  have hcache : cache env idx mac = OrderedDict.empty := by rw [cache, he]
  refine ⟨(prefixOf env idx).bind fun net => deriveGua net mac, ?_⟩
  rw [bestNexthop, hroutes, hcache]
  have hunusable : ∀ g : IPv6, nudUsable ((OrderedDict.empty.get g).getD 0) = false :=
    fun _ => rfl
  cases (prefixOf env idx).bind fun net => deriveGua net mac with
  | none => rfl
  | some g =>
      simp only [Option.filter, hunusable, Bool.false_eq_true, if_false]
      rfl

/-- The plan of a host whose dumps do not fail is that of the event without failures. -/
theorem plan_calm (hlink : env.fault (.linkLookup mac) = none)
    (hroutes : linkLookup env.links h.iface ≠ none → env.fault (.getRoutes mac) = none)
    (hneigh : linkLookup env.links h.iface ≠ none → env.fault (.getNeighbours mac) = none) :
    plan env mac h = plan env.calm mac h := by
  have hindex : index env.calm mac h.iface = .ok (linkLookup env.links h.iface) :=
    index_of_lookup rfl h.iface
  have hok := index_of_lookup hlink h.iface
  rw [plan, plan, hok, hindex]
  cases hidx : linkLookup env.links h.iface with
  | none => rfl
  | some idx =>
      have hne := Option.ne_none_iff_exists'.mpr ⟨idx, hidx⟩
      simp only
      rw [bestNexthop_calm (hroutes hne) (hneigh hne)]
      rfl

/-- What an unharmed host is spared. -/
theorem Unharmed.faults (hu : Unharmed env mac h) :
    env.fault (.linkLookup mac) = none ∧
      (linkLookup env.links h.iface ≠ none → env.fault (.getRoutes mac) = none) ∧
      (linkLookup env.links h.iface ≠ none → env.fault (.getNeighbours mac) = none) ∧
      (∀ h' r, plan env mac h = .ok (h', some r) → env.fault (.routeReplace mac) = none) := by
  have hlink : env.fault (.linkLookup mac) = none := hu _ List.mem_cons_self
  have hok := index_of_lookup hlink h.iface
  rw [Unharmed, ownCalls, hok] at hu
  cases hidx : linkLookup env.links h.iface with
  | none =>
      refine ⟨hlink, fun hne => absurd rfl hne, fun hne => absurd rfl hne, fun h' r hp => ?_⟩
      rw [plan, hok, hidx] at hp
      cases hp
  | some idx =>
      rw [hidx] at hu
      simp only [List.forall_mem_cons] at hu
      obtain ⟨-, hroutes, hrest⟩ := hu
      rw [if_pos hroutes, List.forall_mem_cons] at hrest
      refine ⟨hlink, fun _ => hroutes, fun _ => hrest.1, fun h' r hp => ?_⟩
      rw [hp] at hrest
      exact hrest.2 _ List.mem_cons_self

/-- **The plan of an unharmed host** is that of the event without failures. -/
theorem Unharmed.plan_calm (hu : Unharmed env mac h) : plan env mac h = plan env.calm mac h :=
  Manager.plan_calm hu.faults.1 hu.faults.2.1 hu.faults.2.2.1

/-- The calls of an unharmed host that asks for a route are answered. -/
theorem Unharmed.answered {r : Route4} (hu : Unharmed env mac h)
    (hg : granted env.calm mac h = some r) : answered env mac = true := by
  obtain ⟨hlink, -, hneigh, hreplace⟩ := hu.faults
  rw [granted] at hg
  split at hg
  · rename_i h' r' hp
    rw [← hu.plan_calm] at hp
    have hne : linkLookup env.links h.iface ≠ none := by
      intro hnone
      rw [plan, index, hlink, hnone] at hp
      cases hp
    exact decide_eq_true ⟨hneigh hne, hreplace h' r' hp⟩
  · cases hg

/-- **What a failure costs a host**: its route, if one of the two guarded calls fails. -/
theorem granted_calm (hr : ¬ Raises env mac h) :
    granted env mac h = (granted env.calm mac h).filter fun _ => answered env mac := by
  obtain ⟨hlink, hroutes⟩ := not_or.mp hr
  rw [not_not] at hlink
  have hroutes : linkLookup env.links h.iface ≠ none → env.fault (.getRoutes mac) = none :=
    fun hne => not_not.mp fun hno => hroutes ⟨hne, hno⟩
  by_cases hneigh : env.fault (.getNeighbours mac) = none
  · have hplan := plan_calm hlink hroutes fun _ => hneigh
    obtain ⟨h', r, hp⟩ := exists_plan hr
    rw [granted_of_plan hp, granted_of_plan (hplan ▸ hp), Option.filter_filter]
    cases r with
    | none => rfl
    | some r => simp [Option.filter, answered, hneigh, Env.calm]
  · have hnone : granted env mac h = none := by
      have hok := index_of_lookup hlink h.iface
      rw [granted, plan, hok]
      cases hidx : linkLookup env.links h.iface with
      | none => rfl
      | some idx =>
          have hne := Option.ne_none_iff_exists'.mpr ⟨idx, hidx⟩
          obtain ⟨gua, hbest⟩ := bestNexthop_of_neighbours_fail idx (hroutes hne) hneigh
          simp only [hbest]
    have hunanswered : answered env mac = false := decide_eq_false fun h => hneigh h.1
    rw [hnone, hunanswered]
    cases granted env.calm mac h <;> rfl

/-- The hosts that would ask for a route to the address if nothing failed, with the route. -/
def asks (env : Env) (ip4 : Text) (w : World) : List (Text × Route4) :=
  w.hosts.keys.filterMap fun mac =>
    ((w.hosts.get mac).bind (grantedTo env.calm ip4 mac)).map fun r => (mac, r)

/-- Without failures all of them get it. -/
theorem grants_calm (env : Env) (ip4 : Text) (w : World) :
    grants env.calm ip4 w w.hosts.keys = (asks env ip4 w).map Prod.snd := by
  rw [grants, asks, List.map_filterMap]
  refine List.filterMap_congr fun mac _ => ?_
  cases (w.hosts.get mac).bind (grantedTo env.calm ip4 mac) <;> rfl

/-- With failures those get it whose calls are answered. -/
theorem grants_eq (hno : ∀ mac h, w.hosts.get mac = some h → ¬ Raises env mac h)
    (ip4 : Text) :
    grants env ip4 w w.hosts.keys =
      ((asks env ip4 w).filter fun a => answered env a.1).map Prod.snd := by
  rw [grants, asks, List.filter_filterMap, List.map_filterMap]
  refine List.filterMap_congr fun mac _ => ?_
  cases hh : w.hosts.get mac with
  | none => rfl
  | some h =>
      simp only [Option.bind_some, grantedTo]
      by_cases hip : h.ip4 = ip4
      · rw [if_pos hip, if_pos hip, granted_calm (hno mac h hh)]
        cases granted env.calm mac h with
        | none => rfl
        | some r =>
            rw [Option.map_some, Option.filter_some, Option.filter_some]
            cases answered env mac with
            | false => rfl
            | true => rfl
      · rw [if_neg hip, if_neg hip]
        rfl

end Calm

/-! ### Isolation -/

/-- The last route of an address is the same with failures and without if the last host to
ask for one is answered, or asks for the one there is. -/
theorem lastRoute_eq_iff (asked : List (Text × Route4)) (p : Text → Bool)
    (current : Option Route4) :
    (((asked.filter fun a => p a.1).map Prod.snd).getLast?.or current) =
        ((asked.map Prod.snd).getLast?.or current) ↔
      ∀ m r, asked.getLast? = some (m, r) → p m = false →
        (((asked.filter fun a => p a.1).map Prod.snd).getLast?.or current) = some r := by
  rcases List.eq_nil_or_concat asked with rfl | ⟨l, ⟨m, r⟩, rfl⟩
  · simp
  · rw [List.concat_eq_append]
    have hlast : ((l ++ [(m, r)]).map Prod.snd).getLast?.or current = some r := by simp
    rw [hlast]
    constructor
    · rintro heq m' r' hmr -
      rw [List.getLast?_concat, Option.some.injEq, Prod.mk.injEq] at hmr
      rw [heq, hmr.2]
    · intro h
      cases hp : p m with
      | false => exact h m r List.getLast?_concat hp
      | true => simp [hp]

section Isolation

variable [UnicodeTables] {env : Env} {mac m ip4 : Text} {w : World} {s : Loop} {h : Host}

/-- Every host without a failing call ends as without any failure: its entry, and the route
of its address. -/
def Isolates (env : Env) (w : World) : Prop :=
  ∀ mac h, w.hosts.get mac = some h → Unharmed env mac h →
    (reconcileAll env w).2.hosts.get mac = (reconcileAll env.calm w).2.hosts.get mac ∧
      (reconcileAll env w).2.tables.fib.find? (slot h.ip4) =
        (reconcileAll env.calm w).2.tables.fib.find? (slot h.ip4)

/-- No failure loses the last route for the address of an unharmed host: the last host that
would ask for one gets it, or it is the one there is anyway. -/
def Spared (env : Env) (w : World) : Prop :=
  ∀ mac h, w.hosts.get mac = some h → Unharmed env mac h →
    ∀ m r, (asks env h.ip4 w).getLast? = some (m, r) → answered env m = false →
      ((((asks env h.ip4 w).filter fun a => answered env a.1).map Prod.snd).getLast?.or
        (w.tables.fib.find? (slot h.ip4))) = some r

/-- A wake that makes a sweep. -/
def Sweeps (env : Env) (wake : Wake) : Prop :=
  wake = .timeout env ∨ wake = .events [.netlink true env]

/-- **A sweep ends normally** exactly if none of the unguarded calls fails. -/
theorem reconcileAll_ok_iff : (reconcileAll env w).1 = .ok () ↔
    ∀ mac h, w.hosts.get mac = some h → ¬ Raises env mac h := by
  have hnodup : w.hosts.keys.Nodup := w.hosts.nodup
  rw [reconcileAll, evaluateEach_ok_iff hnodup]
  exact ⟨fun hno mac h hh => hno mac (OrderedDict.mem_keys_iff.mpr ⟨h, hh⟩) h hh,
    fun hno mac _ h hh => hno mac h hh⟩

/-- **The entries after a sweep** that did not raise. -/
theorem reconcileAll_get (hno : ∀ mac h, w.hosts.get mac = some h → ¬ Raises env mac h)
    {h' : Host} {r : Option Route4} (hh : w.hosts.get mac = some h)
    (hp : plan env mac h = .ok (h', r)) : (reconcileAll env w).2.hosts.get mac = some h' :=
  evaluateEach_get w.hosts.nodup (reconcileAll_ok_iff.mpr hno)
    (OrderedDict.mem_keys_iff.mpr ⟨h, hh⟩) hh hp

/-- **The routes after a sweep** that did not raise. -/
theorem reconcileAll_route (hno : ∀ mac h, w.hosts.get mac = some h → ¬ Raises env mac h)
    (ip4 : Text) :
    (reconcileAll env w).2.tables.fib.find? (slot ip4) =
      (((asks env ip4 w).filter fun a => answered env a.1).map Prod.snd).getLast?.or
        (w.tables.fib.find? (slot ip4)) := by
  rw [← grants_eq hno]
  exact evaluateEach_route w.hosts.nodup (reconcileAll_ok_iff.mpr hno) ip4

/-- The routes after a sweep without failures. -/
theorem reconcileAll_route_calm (env : Env) (ip4 : Text) (w : World) :
    (reconcileAll env.calm w).2.tables.fib.find? (slot ip4) =
      ((asks env ip4 w).map Prod.snd).getLast?.or (w.tables.fib.find? (slot ip4)) := by
  rw [← grants_calm]
  exact evaluateEach_route w.hosts.nodup (reconcileAll_ok_iff.mpr fun _ _ _ => not_raises_calm) ip4

/-- **The loop goes on** after a wake that makes a sweep exactly if the sweep ends
normally. -/
theorem serve_goes_on_iff (env : Env) (s : Loop) :
    (∀ wake, Sweeps env wake →
        ∀ wakes, serve (wake :: wakes) s = serve wakes (turn env .sweep s).2) ↔
      (reconcileAll env s.world).1 = .ok () := by
  have hturn : (turn env .sweep s).1 = (reconcileAll env s.world).1 := rfl
  have hwake : ∀ wake, Sweeps env wake → serveWake wake s = turn env .sweep s := by
    rintro wake (rfl | rfl)
    · rfl
    · rw [serveWake, forEach, serveReady, if_pos rfl]
      cases turn env .sweep s with
      | mk r s' => cases r <;> rfl
  rw [← hturn]
  constructor
  · intro hall
    have hnil := hall (.timeout env) (.inl rfl) []
    have hone : serve [.timeout env] s = andThen (turn env .sweep s) (serve []) := rfl
    rw [hone] at hnil
    cases hr : turn env .sweep s with
    | mk r s' =>
        rw [hr] at hnil
        cases r with
        | ok u => rfl
        | error e => cases hnil
  · intro hok wake hsweeps wakes
    rw [serve, forEach, hwake wake hsweeps]
    cases hr : turn env .sweep s with
    | mk r s' =>
        rw [hr] at hok
        cases r with
        | ok u => rfl
        | error e => cases hok

/-- **Which sweeps isolate their failures.** The loop goes on, and every host without a
failing call ends as without any failure, exactly if no unguarded call fails and no failure
loses the last route of the address of such a host. -/
theorem isolates_iff (env : Env) (s : Loop) :
    ((∀ wake, Sweeps env wake →
        ∀ wakes, serve (wake :: wakes) s = serve wakes (turn env .sweep s).2) ∧
      Isolates env s.world) ↔
    (∀ mac h, s.world.hosts.get mac = some h → ¬ Raises env mac h) ∧ Spared env s.world := by
  rw [serve_goes_on_iff, reconcileAll_ok_iff]
  refine and_congr_right fun hno => ?_
  constructor
  · intro hiso mac h hh hu
    have hroute := (hiso mac h hh hu).2
    rw [reconcileAll_route hno, reconcileAll_route_calm] at hroute
    exact (lastRoute_eq_iff _ (answered env) _).mp hroute
  · intro hspared mac h hh hu
    obtain ⟨h', r, hp⟩ := exists_plan (hno mac h hh)
    constructor
    · rw [reconcileAll_get hno hh hp,
        reconcileAll_get (fun _ _ _ => not_raises_calm) hh (hu.plan_calm ▸ hp)]
    · rw [reconcileAll_route hno, reconcileAll_route_calm]
      exact (lastRoute_eq_iff _ (answered env) _).mpr (hspared mac h hh hu)

/-- **With distinct addresses** no failure of one host loses the route of another. -/
theorem spared_of_distinct (hd : Distinct w) : Spared env w := by
  intro mac h hh hu m r hlast hunanswered
  obtain ⟨m', -, hask⟩ := List.mem_filterMap.mp (List.mem_of_getLast? hlast)
  obtain ⟨r', hr', hpair⟩ := Option.map_eq_some_iff.mp hask
  obtain ⟨rfl, rfl⟩ := Prod.mk.inj hpair
  obtain ⟨hm, hget, hgranted⟩ := Option.bind_eq_some_iff.mp hr'
  rw [grantedTo] at hgranted
  split at hgranted
  · rename_i hip
    -- the host that asked has the address, so it is the unharmed one
    obtain rfl : m' = mac := by
      by_contra hne
      exact hd.ne hne hh hget hip
    obtain rfl := Option.some.inj (hh.symm.trans hget)
    rw [hu.answered hgranted] at hunanswered
    cases hunanswered
  · cases hgranted

end Isolation

/-! ### A lookup that fails -/

/-- The MACs of the hosts of `twoHosts`. -/
def macA : Text := "aa:00:00:00:00:01".toList

def macB : Text := "aa:00:00:00:00:02".toList

/-- The two hosts after a restart, without routes. -/
def restarted : World where
  hosts := (OrderedDict.empty.set macA ⟨"eth0".toList, "10.0.0.1".toList, none, none⟩).set macB
    ⟨"eth0".toList, "10.0.0.2".toList, none, none⟩
  tables := ⟨[], []⟩
  state := none
  trace := []

/-- The link lookup for the first host fails once, with EBUSY. -/
def busy : Env :=
  { twoHosts with fault := fun c => if c = .linkLookup macA then some ⟨16⟩ else none }

/-- **A failing link lookup** of the first host ends the loop, and the second host, none of
whose calls fail, is left without its route. -/
theorem busy_ends_serve :
    (serve [.timeout busy, .timeout twoHosts] (Loop.start restarted)).1 = .error ⟨16⟩ ∧
      (∃ h, restarted.hosts.get macB = some h ∧ Unharmed busy macB h) ∧
      (reconcileAll busy restarted).2.tables.fib.find? (slot "10.0.0.2".toList) = none ∧
      (reconcileAll busy.calm restarted).2.tables.fib.find? (slot "10.0.0.2".toList) =
        some (hostRoute "10.0.0.2".toList 3 nhB) := by
  refine ⟨by decide, ⟨⟨"eth0".toList, "10.0.0.2".toList, none, none⟩, by decide, ?_⟩, by decide,
    by decide⟩
  rw [Unharmed]
  decide

end V4WithV6Nh.Manager
