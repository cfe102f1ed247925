import V4WithV6Nh.HostDaemon
import V4WithV6Nh.Run

/-!
# The Host Daemon and the IPv4 FIB

In native mode every managed interface programs the same destination at the same metric,
and the kernel finds the route to replace by destination, TOS and metric alone. So a
`reconcile` that installs a route overwrites whatever holds that slot: the default route
of another managed interface, or a foreign default at the daemon's metric. And since the
route it remembers is never compared with the FIB, a route that others removed is not
installed again.

## Main results

* `reconcile_cases`: everything a `reconcile` can do.
* `framed_iff_slotFree`: a `reconcile` changes no route but the interface's own exactly
  when the slot it programs, if it programs one, is free or already its own.
* `always_framed_iff`: the runs in which every `reconcile` does so and every remembered
  route is in the kernel are the runs in which every slot that is programmed is free or
  the interface's own.
* `route_mem_reconcile_iff`: after a pass that selects `gw` the route via `gw` is in the
  kernel exactly when it was there before or `gw` is not the remembered gateway.
-/

namespace V4WithV6Nh.HostDaemon

open Interface

/-! ### What a pass does -/

section Cases

variable {env : Env} {i : Interface} {w : World} {gw : IPv6}

/-- The pass finds the interface, passes the sentinel gate and selects `gw`. -/
def Follows (env : Env) (i : Interface) (t : Tables) (gw : IPv6) : Prop :=
  env.fault .linkLookup = none ∧ (i.resolveIndex env).index.isSome ∧
    (i.resolveIndex env).gate env t = .ok true ∧
    (i.resolveIndex env).selectRouter env = .ok (some gw)

/-- The pass requests a route via `gw`, and the request does not fail. -/
def Programs (env : Env) (i : Interface) (t : Tables) (gw : IPv6) : Prop :=
  Follows env i t gw ∧ i.installedVia ≠ some gw ∧ env.fault .routeReplace = none

theorem Follows.unique {t : Tables} {gw' : IPv6} (h : Follows env i t gw)
    (h' : Follows env i t gw') : gw = gw' :=
  Option.some.inj (Except.ok.inj (h.2.2.2.symm.trans h'.2.2.2))

/-- What a pass that selects `gw` does. -/
theorem reconcile_of_follows (h : Follows env i w.tables gw) :
    i.reconcile env w = (.ok (), (i.resolveIndex env).install env gw
      ((i.resolveIndex env).solicit env gw w)) := by
  obtain ⟨hlink, hindex, hgate, hselect⟩ := h
  obtain ⟨idx, hidx⟩ := Option.isSome_iff_exists.mp hindex
  simp only [reconcile, hlink, hidx, reconcilePresent, hgate, hselect]

/-- **Everything a pass can do**: follow a router, leave the tables alone, or cease. -/
theorem reconcile_cases (env : Env) (i : Interface) (w : World) :
    (∃ gw, Follows env i w.tables gw) ∨
    (∀ gw, ¬ Follows env i w.tables gw) ∧
      ((i.reconcile env w).2 = (i, w) ∨
       (i.reconcile env w).2 = (i.resolveIndex env, w) ∨
       (i.reconcile env w).2 =
         ({ i.resolveIndex env with installedVia := none, installedMac := none }, w) ∨
       (i.resolveIndex env).index.isSome ∧
         (i.reconcile env w).2 = (i.resolveIndex env).cease env w) := by
  rw [reconcile]
  cases hlink : env.fault .linkLookup with
  | some e =>
      refine Or.inr ⟨fun gw h => ?_, Or.inl rfl⟩
      rw [h.1] at hlink
      cases hlink
  | none =>
      simp only
      cases hidx : (i.resolveIndex env).index with
      | none =>
          refine Or.inr ⟨fun gw h => ?_, Or.inr (Or.inr (Or.inl rfl))⟩
          have hsome := h.2.1
          rw [hidx] at hsome
          cases hsome
      | some idx =>
          simp only [reconcilePresent]
          cases hgate : (i.resolveIndex env).gate env w.tables with
          | error e =>
              refine Or.inr ⟨fun gw h => ?_, Or.inr (Or.inl rfl)⟩
              rw [h.2.2.1] at hgate
              cases hgate
          | ok b =>
              cases b with
              | false =>
                  refine Or.inr ⟨fun gw h => ?_, Or.inr (Or.inr (Or.inr ⟨rfl, rfl⟩))⟩
                  rw [h.2.2.1] at hgate
                  cases hgate
              | true =>
                  cases hselect : (i.resolveIndex env).selectRouter env with
                  | error e =>
                      refine Or.inr ⟨fun gw h => ?_, Or.inr (Or.inl rfl)⟩
                      rw [h.2.2.2] at hselect
                      cases hselect
                  | ok best =>
                      cases best with
                      | none =>
                          refine Or.inr ⟨fun gw h => ?_, Or.inr (Or.inr (Or.inr ⟨rfl, rfl⟩))⟩
                          rw [h.2.2.2] at hselect
                          cases hselect
                      | some gw =>
                          exact Or.inl ⟨gw, hlink, by rw [hidx]; rfl, hgate, hselect⟩

/-- Soliciting a router touches no table. -/
@[simp] theorem solicit_tables : (i.solicit env gw w).tables = w.tables := by
  rw [solicit]
  split <;> rfl

/-- In native mode a pass that programs a route puts it in its slot. -/
theorem reconcile_of_programs (hnative : i.staticArp = false)
    (h : Programs env i w.tables gw) :
    (i.reconcile env w).2.1 = { i.resolveIndex env with installedVia := some gw } ∧
      (i.reconcile env w).2.2.tables.fib =
        upsertFirst ((i.resolveIndex env).defaultRoute gw).sameKey
          ((i.resolveIndex env).defaultRoute gw) w.tables.fib := by
  obtain ⟨hfollows, hvia, hfault⟩ := h
  have hvia' : (i.resolveIndex env).installedVia ≠ some gw := hvia
  have hnative' : (i.resolveIndex env).staticArp = false := hnative
  rw [reconcile_of_follows hfollows]
  simp only [install, hnative', Bool.false_eq_true, if_false, installRoute, if_neg hvia',
    hfault, routeReplace_none, solicit_tables]
  exact ⟨trivial, trivial⟩

/-- In native mode a pass that selects a router and does not program it leaves the tables
and the remembered gateway alone. -/
theorem reconcile_of_not_programs (hnative : i.staticArp = false)
    (hfollows : Follows env i w.tables gw) (h : ¬ Programs env i w.tables gw) :
    (i.reconcile env w).2.1 = i.resolveIndex env ∧
      (i.reconcile env w).2.2.tables = w.tables := by
  have hnative' : (i.resolveIndex env).staticArp = false := hnative
  rw [reconcile_of_follows hfollows]
  simp only [install, hnative', Bool.false_eq_true, if_false, installRoute]
  by_cases hvia : (i.resolveIndex env).installedVia = some gw
  · rw [if_pos hvia]
    exact ⟨rfl, solicit_tables⟩
  · rw [if_neg hvia]
    cases hfault : env.fault .routeReplace with
    | none => exact absurd ⟨hfollows, hvia, hfault⟩ h
    | some e => exact ⟨rfl, solicit_tables⟩

/-- **Everything a withdrawal can do**: forget the MAC and leave the routes alone, or forget
the gateway and delete an own route at most. -/
theorem withdraw_cases (env : Env) (i : Interface) (w : World) :
    (i.staticArp = true ∧ (i.withdraw env w).1 = { i with installedMac := none } ∧
      (i.withdraw env w).2.tables.fib = w.tables.fib) ∨
    (i.staticArp = false ∧ (i.withdraw env w).1 = { i with installedVia := none } ∧
      ((i.withdraw env w).2.tables.fib = w.tables.fib ∨
        (i.withdraw env w).2.tables.fib = w.tables.fib.eraseP i.ownRoutes.accepts)) := by
  rw [withdraw]
  split
  · rename_i hstatic
    refine Or.inl ⟨hstatic, ?_⟩
    split
    · rename_i hmac
      rw [← hmac]
      exact ⟨rfl, rfl⟩
    · split
      · rename_i t ht
        exact ⟨rfl, neighDel_fib ht⟩
      · exact ⟨rfl, rfl⟩
  · rename_i hnative
    refine Or.inr ⟨(Bool.not_eq_true _).mp hnative, ?_⟩
    split
    · rename_i t ht
      exact ⟨rfl, Or.inr (routeDel_ok ht).1⟩
    · exact ⟨rfl, Or.inl rfl⟩

/-- In native mode ceasing deletes an own route at most. -/
theorem cease_fib (env : Env) (w : World) (hnative : i.staticArp = false)
    (hindex : i.index.isSome) :
    (i.cease env w).2.tables.fib = w.tables.fib ∨
      (i.cease env w).2.tables.fib = w.tables.fib.eraseP i.owns := by
  have howns : i.owns = i.ownRoutes.accepts := by
    funext r
    rw [owns, hindex, Bool.true_and]
  rw [cease, howns]
  split
  · obtain ⟨hstatic, -⟩ | ⟨-, -, hfib⟩ := withdraw_cases env i w
    · rw [hnative] at hstatic
      cases hstatic
    · exact hfib
  · exact Or.inl rfl

/-- After ceasing in native mode no gateway is remembered. -/
theorem cease_installedVia (env : Env) (w : World) (hnative : i.staticArp = false) :
    (i.cease env w).1.installedVia = none := by
  rw [cease]
  split
  · obtain ⟨hstatic, -⟩ | ⟨-, hi, -⟩ := withdraw_cases env i w
    · rw [hnative] at hstatic
      cases hstatic
    · rw [hi]
  · rename_i hactive
    cases hvia : i.installedVia with
    | none => rfl
    | some gw => exact absurd (by simp [active, hvia]) hactive

end Cases

/-! ### The frame of a pass -/

section Frame

variable {env : Env} {i : Interface} {w : World} {gw : IPv6}

/-- The pass changes no route but the interface's own. -/
def Framed (env : Env) (i : Interface) (w w' : World) : Prop :=
  w'.tables.fib.filter (fun r => !(i.resolveIndex env).owns r) =
    w.tables.fib.filter fun r => !(i.resolveIndex env).owns r

/-- If the pass programs a route, the first route in its slot is the interface's own, or
there is none. -/
def SlotFree (env : Env) (i : Interface) (t : Tables) : Prop :=
  ∀ gw, Programs env i t gw → ∀ x,
    t.fib.find? ((i.resolveIndex env).defaultRoute gw).sameKey = some x →
      (i.resolveIndex env).owns x = true

/-- The route that is installed is the interface's own. -/
theorem owns_defaultRoute (gw : IPv6) (hindex : i.index.isSome) :
    i.owns (i.defaultRoute gw) = true := by
  obtain ⟨idx, hidx⟩ := Option.isSome_iff_exists.mp hindex
  simp only [owns, RouteFilter.accepts, ownRoutes, defaultRoute, hidx, and_self, decide_true,
    Option.isSome_some, Bool.and_self]

/-- The interface's own routes go out of it. -/
theorem oif_of_owns {r : Route4} (h : i.owns r = true) :
    i.index.isSome ∧ r.oif = i.index := by
  rw [owns, Bool.and_eq_true] at h
  obtain ⟨idx, hidx⟩ := Option.isSome_iff_exists.mp h.1
  have haccepts := h.2
  simp only [RouteFilter.accepts, ownRoutes, hidx, Bool.and_eq_true,
    decide_eq_true_eq] at haccepts
  exact ⟨h.1, haccepts.1.2.trans hidx.symm⟩

/-- **The exact frame of a pass** in native mode. -/
theorem framed_iff_slotFree (env : Env) (w : World) (hnative : i.staticArp = false) :
    Framed env i w (i.reconcile env w).2.2 ↔ SlotFree env i w.tables := by
  have hsame : ∀ w', w'.tables.fib = w.tables.fib → Framed env i w w' := by
    intro w' hw'
    rw [Framed, hw']
  obtain ⟨gw, hfollows⟩ | ⟨hnot, hcases⟩ := reconcile_cases env i w
  · by_cases hprograms : Programs env i w.tables gw
    · have hown := owns_defaultRoute gw hfollows.2.1
      rw [Framed, (reconcile_of_programs hnative hprograms).2,
        filter_upsertFirst_iff (by rw [hown]; rfl)]
      constructor
      · intro hfirst gw' hprograms' x hx
        obtain rfl := hfollows.unique hprograms'.1
        simpa using hfirst x hx
      · intro hfree x hx
        rw [hfree gw hprograms x hx]
        rfl
    · have hfib := (reconcile_of_not_programs hnative hfollows hprograms).2
      refine iff_of_true (hsame _ (by rw [hfib])) ?_
      intro gw' hprograms'
      exact absurd (hfollows.unique hprograms'.1 ▸ hprograms') hprograms
  · refine iff_of_true ?_ fun gw hprograms => absurd hprograms.1 (hnot gw)
    obtain hc | hc | hc | ⟨hindex, hc⟩ := hcases
    · exact hsame _ (by rw [hc])
    · exact hsame _ (by rw [hc])
    · exact hsame _ (by rw [hc])
    · rw [hc]
      obtain hfib | hfib := cease_fib (i := i.resolveIndex env) env w hnative hindex
      · exact hsame _ hfib
      · rw [Framed, hfib]
        exact filter_eraseP fun x _ hx => by rw [hx]; rfl

end Frame

/-! ### Remembered routes -/

section Memory

variable {ifindex : Text → Option ℕ} {env : Env} {n n' : Text} {i j : Interface}
  {w w' : World}

/-- The route of a remembered gateway is in the kernel. -/
def Installed (i : Interface) (t : Tables) : Prop :=
  ∀ gw, i.installedVia = some gw → i.defaultRoute gw ∈ t.fib

/-- An interface in native mode that holds the index of its name while it remembers a
gateway. -/
def Sound (ifindex : Text → Option ℕ) (n : Text) (i : Interface) : Prop :=
  i.name = n ∧ i.staticArp = false ∧
    (i.installedVia ≠ none → i.index = ifindex n ∧ i.index.isSome)

/-- The interface indexes of `env` are those of `ifindex`. -/
def Stable (ifindex : Text → Option ℕ) (env : Env) : Prop :=
  ∀ n, linkLookup env.links n = ifindex n

/-- Resolving an index that did not change changes nothing. -/
theorem resolveIndex_of_sound (hi : Sound ifindex n i) (hs : Stable ifindex env)
    (hvia : i.installedVia ≠ none) : i.resolveIndex env = i := by
  obtain ⟨rfl, -, hindex⟩ := hi
  rw [resolveIndex, hs, ← (hindex hvia).1]

/-- After resolving the index an interface is still sound and has its route. -/
theorem sound_resolveIndex (hi : Sound ifindex n i) (hs : Stable ifindex env)
    {t : Tables} (hin : Installed i t) :
    Sound ifindex n (i.resolveIndex env) ∧ Installed (i.resolveIndex env) t := by
  by_cases hvia : i.installedVia = none
  · refine ⟨⟨hi.1, hi.2.1, fun h => absurd hvia h⟩, fun gw h => ?_⟩
    rw [show (i.resolveIndex env).installedVia = i.installedVia from rfl, hvia] at h
    cases h
  · rw [resolveIndex_of_sound hi hs hvia]
    exact ⟨hi, hin⟩

/-- An interface that remembers no gateway has every route it remembers. -/
theorem installed_of_none {t : Tables} (h : i.installedVia = none) : Installed i t := by
  intro gw hgw
  rw [h] at hgw
  cases hgw

/-- Ceasing keeps the name and the mode of an interface. -/
theorem cease_name (env : Env) (i : Interface) (w : World) : (i.cease env w).1.name = i.name ∧
    (i.cease env w).1.staticArp = i.staticArp := by
  rw [cease]
  split
  · obtain ⟨-, hi, -⟩ | ⟨-, hi, -⟩ := withdraw_cases env i w
    · rw [hi]
      exact ⟨rfl, rfl⟩
    · rw [hi]
      exact ⟨rfl, rfl⟩
  · exact ⟨rfl, rfl⟩

/-- **A pass keeps its own interface right**: whatever it finds and whichever calls fail,
the gateway it remembers afterwards has its route. -/
theorem installed_reconcile (hi : Sound ifindex n i) (hs : Stable ifindex env)
    (hin : Installed i w.tables) :
    Sound ifindex n (i.reconcile env w).2.1 ∧
      Installed (i.reconcile env w).2.1 (i.reconcile env w).2.2.tables := by
  have hresolved := sound_resolveIndex hi hs hin
  obtain ⟨gw, hfollows⟩ | ⟨-, hc | hc | hc | ⟨-, hc⟩⟩ := reconcile_cases env i w
  · by_cases hprograms : Programs env i w.tables gw
    · obtain ⟨hi', hfib⟩ := reconcile_of_programs hi.2.1 hprograms
      rw [hi']
      refine ⟨⟨hi.1, hi.2.1, fun _ => ⟨?_, hfollows.2.1⟩⟩, fun gw' hgw' => ?_⟩
      · rw [← hi.1, ← hs]
        rfl
      · obtain rfl : gw = gw' := Option.some.inj hgw'
        rw [hfib]
        exact mem_upsertFirst_self _ _ _
    · obtain ⟨hi', htables⟩ := reconcile_of_not_programs hi.2.1 hfollows hprograms
      rw [hi', htables]
      exact hresolved
  · rw [hc]
    exact ⟨hi, hin⟩
  · rw [hc]
    exact hresolved
  · rw [hc]
    exact ⟨⟨hi.1, hi.2.1, fun h => absurd rfl h⟩, installed_of_none rfl⟩
  · rw [hc]
    have hvia := cease_installedVia (i := i.resolveIndex env) env w hi.2.1
    obtain ⟨hname, hmode⟩ := cease_name env (i.resolveIndex env) w
    exact ⟨⟨hname.trans hi.1, hmode.trans hi.2.1, fun h => absurd hvia h⟩,
      installed_of_none hvia⟩

/-- A pass keeps an interface in native mode. -/
theorem reconcile_native (env : Env) (w : World) (hnative : i.staticArp = false) :
    (i.reconcile env w).2.1.staticArp = false := by
  obtain ⟨gw, hfollows⟩ | ⟨-, hc | hc | hc | ⟨-, hc⟩⟩ := reconcile_cases env i w
  · by_cases hprograms : Programs env i w.tables gw
    · rw [(reconcile_of_programs hnative hprograms).1]
      exact hnative
    · rw [(reconcile_of_not_programs hnative hfollows hprograms).1]
      exact hnative
  · rw [hc]
    exact hnative
  · rw [hc]
    exact hnative
  · rw [hc]
    exact hnative
  · rw [hc]
    exact (cease_name env (i.resolveIndex env) w).2.trans hnative

/-- A pass that changes no route but its interface's own keeps the route of another
interface. -/
theorem Framed.installed (hframe : Framed env i w w') (hi : Sound ifindex n i)
    (hs : Stable ifindex env)
    (hinj : ∀ m m' idx, ifindex m = some idx → ifindex m' = some idx → m = m')
    (hj : Sound ifindex n' j) (hne : n' ≠ n) (hin : Installed j w.tables) :
    Installed j w'.tables := by
  intro gw hgw
  have hvia : j.installedVia ≠ none := by
    rw [hgw]
    exact Option.some_ne_none gw
  obtain ⟨hindex, hsome⟩ := hj.2.2 hvia
  obtain ⟨idx, hidx⟩ := Option.isSome_iff_exists.mp hsome
  have hnot : (i.resolveIndex env).owns (j.defaultRoute gw) = false := by
    by_contra howns
    obtain ⟨-, hoif⟩ := oif_of_owns ((Bool.not_eq_false _).mp howns)
    have hoif' : j.index = (i.resolveIndex env).index := hoif
    have hn : ifindex n = some idx := by
      rw [← hs n, ← hi.1]
      exact hoif'.symm.trans hidx
    exact hne (hinj n' n idx (hindex.symm.trans hidx) hn)
  have hmem : j.defaultRoute gw ∈
      w.tables.fib.filter fun r => !(i.resolveIndex env).owns r :=
    List.mem_filter.mpr ⟨hin gw hgw, by rw [hnot]; rfl⟩
  rw [← hframe] at hmem
  exact (List.mem_filter.mp hmem).1

end Memory

/-! ### Runs of the daemon -/

/-- What happens to the daemon: it looks for new interfaces, it reconciles one of them,
or others change the IPv4 tables. -/
inductive Happening
  | refresh (names : List Text)
  | pass (env : Env) (name : Text)
  | others (t : Tables)

section Runs

variable {c : Config} {ifindex : Text → Option ℕ} {d d' : Daemon}

/-- One step: passes of any interfaces in any order, in any kernel state and with any
failing calls, and any change of the IPv4 tables by others. -/
def HostTurn (c : Config) (d : Daemon) : Happening → Daemon → Prop
  | .refresh names, d' => d' = d.refresh c names
  | .pass env name, d' => d' = d.reconcile env name
  | .others t, d' => d' = { d with world := { d.world with tables := t } }

/-- Interface indexes are stable, and others leave proto-199 routes alone. -/
def Calm (ifindex : Text → Option ℕ) (d : Daemon) : Happening → Prop
  | .refresh _ => True
  | .pass env _ => Stable ifindex env
  | .others t => ∀ r : Route4, r.proto = RT_PROTO → (r ∈ t.fib ↔ r ∈ d.world.tables.fib)

/-- Every interface is in native mode. -/
def AllNative (d : Daemon) : Prop := ∀ n i, d.ifaces.get n = some i → i.staticArp = false

/-- Every interface that remembers a gateway has its route. -/
def AllInstalled (d : Daemon) : Prop :=
  ∀ n i, d.ifaces.get n = some i → Installed i d.world.tables

/-- Every interface is sound. -/
def AllSound (ifindex : Text → Option ℕ) (d : Daemon) : Prop :=
  ∀ n i, d.ifaces.get n = some i → Sound ifindex n i

/-- A pass changes no route but its interface's own. -/
def FramedStep (d : Daemon) : Happening → Daemon → Prop
  | .pass env name, d' =>
      ∀ i, d.ifaces.get name = some i → Framed env i d.world d'.world
  | _, _ => True

/-- The slot that a pass programs, if it programs one, is free or its interface's own. -/
def SlotFreeStep (d : Daemon) : Happening → Prop
  | .pass env name => ∀ i, d.ifaces.get name = some i → SlotFree env i d.world.tables
  | _ => True

/-- A pass of a managed interface. -/
theorem reconcile_of_get {env : Env} {name : Text} {i : Interface}
    (hget : d.ifaces.get name = some i) :
    d.reconcile env name =
      { ifaces := d.ifaces.set name (i.reconcile env d.world).2.1
        world := (i.reconcile env d.world).2.2 } := by
  rw [Daemon.reconcile, hget]

/-- Looking for new interfaces keeps the old ones; the new ones remember nothing. -/
theorem refresh_get {names : List Text} {n : Text} {i : Interface}
    (h : (d.refresh c names).ifaces.get n = some i) :
    d.ifaces.get n = some i ∨ i = c.interface n := by
  revert h
  rw [Daemon.refresh]
  generalize d.ifaces = ifaces
  induction names generalizing ifaces with
  | nil => exact Or.inl
  | cons m names ih =>
      intro h
      rw [List.foldl_cons] at h
      rcases ih _ h with h | h
      · cases hm : ifaces.get m with
        | some j =>
            rw [hm] at h
            exact Or.inl h
        | none =>
            rw [hm] at h
            rcases OrderedDict.get_set_cases h with ⟨rfl, rfl⟩ | ⟨-, h⟩
            · exact Or.inr rfl
            · exact Or.inl h
      · exact Or.inr h

/-- A pass of an interface that is not managed does nothing. -/
theorem reconcile_of_get_none {env : Env} {name : Text} (hget : d.ifaces.get name = none) :
    d.reconcile env name = d := by
  rw [Daemon.reconcile, hget]

/-- Every step keeps the interfaces in native mode. -/
theorem allNative_step {e : Happening} (hc : c.staticArp = false) (hnative : AllNative d)
    (hturn : HostTurn c d e d') : AllNative d' := by
  cases e with
  | refresh names =>
      obtain rfl : d' = d.refresh c names := hturn
      intro n i hget
      rcases refresh_get hget with h | rfl
      · exact hnative n i h
      · exact hc
  | others t =>
      obtain rfl : d' = { d with world := { d.world with tables := t } } := hturn
      exact hnative
  | pass env name =>
      obtain rfl : d' = d.reconcile env name := hturn
      cases hget : d.ifaces.get name with
      | none =>
          rw [reconcile_of_get_none hget]
          exact hnative
      | some i =>
          rw [reconcile_of_get hget]
          intro n j hj
          rcases OrderedDict.get_set_cases hj with ⟨rfl, rfl⟩ | ⟨-, hj⟩
          · exact reconcile_native env d.world (hnative n i hget)
          · exact hnative n j hj

/-- **One step of the daemon** is framed exactly when the slot it programs is free or its
interface's own. -/
theorem framedStep_iff {e : Happening} (hnative : AllNative d) (hturn : HostTurn c d e d') :
    FramedStep d e d' ↔ SlotFreeStep d e := by
  cases e with
  | refresh names => exact Iff.rfl
  | others t => exact Iff.rfl
  | pass env name =>
      obtain rfl : d' = d.reconcile env name := hturn
      refine forall_congr' fun i => forall_congr' fun hget => ?_
      rw [reconcile_of_get hget]
      exact framed_iff_slotFree env d.world (hnative name i hget)

/-- A framed step in a calm environment keeps every remembered route. -/
theorem installed_step {e : Happening} (hc : c.staticArp = false)
    (hinj : ∀ m m' idx, ifindex m = some idx → ifindex m' = some idx → m = m')
    (hsound : AllSound ifindex d) (hin : AllInstalled d) (hturn : HostTurn c d e d')
    (hcalm : Calm ifindex d e) (hframe : FramedStep d e d') :
    AllSound ifindex d' ∧ AllInstalled d' := by
  cases e with
  | refresh names =>
      obtain rfl : d' = d.refresh c names := hturn
      have hworld : (d.refresh c names).world = d.world := rfl
      refine ⟨fun n i hget => ?_, fun n i hget => ?_⟩
      · rcases refresh_get hget with h | rfl
        · exact hsound n i h
        · exact ⟨rfl, hc, fun h => absurd rfl h⟩
      · rw [hworld]
        rcases refresh_get hget with h | rfl
        · exact hin n i h
        · exact installed_of_none rfl
  | others t =>
      obtain rfl : d' = { d with world := { d.world with tables := t } } := hturn
      exact ⟨hsound, fun n i hget gw hgw => (hcalm _ rfl).mpr (hin n i hget gw hgw)⟩
  | pass env name =>
      obtain rfl : d' = d.reconcile env name := hturn
      cases hget : d.ifaces.get name with
      | none =>
          rw [reconcile_of_get_none hget]
          exact ⟨hsound, hin⟩
      | some i =>
          have hi := hsound name i hget
          obtain ⟨hself, hinself⟩ := installed_reconcile hi hcalm (hin name i hget)
          have hother := hframe i hget
          rw [reconcile_of_get hget] at hother ⊢
          refine ⟨fun n j hj => ?_, fun n j hj => ?_⟩
          · rcases OrderedDict.get_set_cases hj with ⟨rfl, rfl⟩ | ⟨-, hj⟩
            · exact hself
            · exact hsound n j hj
          · rcases OrderedDict.get_set_cases hj with ⟨rfl, rfl⟩ | ⟨hn, hj⟩
            · exact hinself
            · exact hother.installed hi hcalm hinj (hsound n j hj) hn (hin n j hj)

/-- **The routes along every run** of a daemon in native mode that starts without
interfaces on any tables: the runs in which no pass changes a route but its interface's
own are the runs in which the slot that a pass programs is free or its interface's own.
If interface indexes are stable and others leave proto-199 routes alone, these are also
the runs in which, besides, every remembered route is in the kernel after every step. -/
theorem always_framed_iff (hc : c.staticArp = false) {w : World} {es : List Happening} :
    (Run (fun d e d' => HostTurn c d e d' ∧ FramedStep d e d') ⟨OrderedDict.empty, w⟩ es d' ↔
      Run (fun d e d' => HostTurn c d e d' ∧ SlotFreeStep d e)
        ⟨OrderedDict.empty, w⟩ es d') ∧
    ∀ ifindex : Text → Option ℕ,
      (∀ m m' idx, ifindex m = some idx → ifindex m' = some idx → m = m') →
      (Run (fun d e d' => (HostTurn c d e d' ∧ Calm ifindex d e) ∧
            FramedStep d e d' ∧ AllInstalled d') ⟨OrderedDict.empty, w⟩ es d' ↔
        Run (fun d e d' => (HostTurn c d e d' ∧ Calm ifindex d e) ∧ SlotFreeStep d e)
          ⟨OrderedDict.empty, w⟩ es d') := by
  have hempty : ∀ n i, (OrderedDict.empty : OrderedDict Text Interface).get n ≠ some i := by
    intro n i h
    cases h
  constructor
  · refine Run.always_iff (R := HostTurn c) (I := AllNative) ?_ ?_ ?_
    · exact fun d e d' hnative hturn _ => allNative_step hc hnative hturn
    · exact fun d e d' hnative hturn => framedStep_iff hnative hturn
    · exact fun n i h => absurd h (hempty n i)
  · intro ifindex hinj
    refine Run.always_iff (R := fun d e d' => HostTurn c d e d' ∧ Calm ifindex d e)
      (I := fun d => AllSound ifindex d ∧ AllInstalled d) ?_ ?_ ?_
    · exact fun d e d' hinv hturn h =>
        installed_step hc hinj hinv.1 hinv.2 hturn.1 hturn.2 h.1
    · intro d e d' hinv hturn
      have hframed : FramedStep d e d' ↔ SlotFreeStep d e :=
        framedStep_iff (fun n i hget => (hinv.1 n i hget).2.1) hturn.1
      constructor
      · exact fun h => hframed.mp h.1
      · intro hfree
        have hframe := hframed.mpr hfree
        exact ⟨hframe, (installed_step hc hinj hinv.1 hinv.2 hturn.1 hturn.2 hframe).2⟩
    · exact ⟨fun n i h => absurd h (hempty n i), fun n i h => absurd h (hempty n i)⟩

end Runs

/-! ### Two managed interfaces -/

/-- The default configuration. -/
def defaults : Config := ⟨50, true, false, "192.0.0.11".toList⟩

/-- Two interfaces, each with a reachable IPv6 default router. -/
def twoLinks : Env where
  links := [⟨"eth0".toList, 3, 1⟩, ⟨"eth1".toList, 4, 1⟩]
  routes6 := [⟨0, none, some 3, some 0xfe800000000000000000000000000001#128, none, []⟩,
    ⟨0, none, some 4, some 0xfe800000000000000000000000000002#128, none, []⟩]
  neigh6 := [⟨3, some 0xfe800000000000000000000000000001#128, none, 2⟩,
    ⟨4, some 0xfe800000000000000000000000000002#128, none, 2⟩]
  fault := fun _ => none

/-- The default route that DHCP installs on an interface. -/
def sentinelRoute (idx : ℕ) : Route4 :=
  ⟨RT_TABLE_MAIN, INADDR_ANY, 0, 0, 100 + idx, some idx, 16, some "192.0.0.11".toList, none⟩

/-- Both interfaces with their sentinel routes. -/
def leased : World := ⟨⟨[sentinelRoute 3, sentinelRoute 4], []⟩, []⟩

theorem twoLinks_injective : ∀ m m' idx, linkLookup twoLinks.links m = some idx →
    linkLookup twoLinks.links m' = some idx → m = m' := by
  intro m m' idx h h'
  obtain ⟨l, hl, rfl⟩ := Option.map_eq_some_iff.mp h
  obtain ⟨l', hl', hidx⟩ := Option.map_eq_some_iff.mp h'
  have hname : l.ifname = m := by simpa using List.find?_some hl
  have hname' : l'.ifname = m' := by simpa using List.find?_some hl'
  have hmem := List.mem_of_find?_eq_some hl
  have hmem' := List.mem_of_find?_eq_some hl'
  have huniq : ∀ l ∈ twoLinks.links, ∀ l' ∈ twoLinks.links, l'.index = l.index → l' = l := by
    decide
  rw [← hname, ← hname', huniq l hmem l' hmem' hidx]

/-- The daemon after it found both interfaces. -/
def found : Daemon :=
  Daemon.refresh defaults ["eth0".toList, "eth1".toList] ⟨OrderedDict.empty, leased⟩

/-- With one interface programmed, its route is in the kernel beside the sentinel
routes. -/
theorem framed_one_interface :
    Run (fun d e d' => (HostTurn defaults d e d' ∧ Calm (linkLookup twoLinks.links) d e) ∧
        FramedStep d e d' ∧ AllInstalled d')
      ⟨OrderedDict.empty, leased⟩
      [.refresh ["eth0".toList, "eth1".toList], .pass twoLinks "eth0".toList]
      (found.reconcile twoLinks "eth0".toList) := by
  have hget : found.ifaces.get "eth0".toList = some (defaults.interface "eth0".toList) := by
    decide
  have hfree : SlotFreeStep found (.pass twoLinks "eth0".toList) := by
    intro i hi gw _ x hx
    obtain rfl := Option.some.inj (hget.symm.trans hi)
    have hnone : found.world.tables.fib.find?
        (((defaults.interface "eth0".toList).resolveIndex twoLinks).defaultRoute gw).sameKey =
          none := rfl
    rw [hnone] at hx
    cases hx
  exact ((always_framed_iff rfl).2 _ twoLinks_injective).mpr
    (.cons ⟨⟨rfl, trivial⟩, trivial⟩ (Run.single ⟨⟨rfl, fun _ => rfl⟩, hfree⟩))

/-- **Two interfaces overwrite each other**: after both were reconciled, the first one
still remembers its gateway, and the only proto-199 route left is that of the second. -/
theorem second_interface_overwrites :
    ∃ (es : List Happening) (d : Daemon),
      Run (fun d e d' => HostTurn defaults d e d' ∧ Calm (linkLookup twoLinks.links) d e)
        ⟨OrderedDict.empty, leased⟩ es d ∧
      ¬ AllInstalled d ∧
      d.world.tables.fib.filter (fun r => r.proto = RT_PROTO) =
        [{ (defaults.interface "eth1".toList) with index := some 4 }.defaultRoute
          0xfe800000000000000000000000000002#128] := by
  have hrun : Run (fun d e d' => HostTurn defaults d e d' ∧
        Calm (linkLookup twoLinks.links) d e)
      ⟨OrderedDict.empty, leased⟩
      [.refresh ["eth0".toList, "eth1".toList], .pass twoLinks "eth0".toList,
        .pass twoLinks "eth1".toList]
      ((found.reconcile twoLinks "eth0".toList).reconcile twoLinks "eth1".toList) :=
    .cons ⟨rfl, trivial⟩ (.cons ⟨rfl, fun _ => rfl⟩ (Run.single ⟨rfl, fun _ => rfl⟩))
  refine ⟨_, _, hrun, fun hall => ?_, by decide⟩
  have hget : ((found.reconcile twoLinks "eth0".toList).reconcile twoLinks
      "eth1".toList).ifaces.get "eth0".toList =
        some { defaults.interface "eth0".toList with
          index := some 3, installedVia := some 0xfe800000000000000000000000000001#128 } := by
    decide
  have hmem := hall _ _ hget _ rfl
  revert hmem
  decide

/-! ### Passes over any history of the kernel -/

section Passes

variable {env : Env} {i i' : Interface} {w : World} {gw : IPv6}

/-- Every netlink call succeeds. -/
def NoFaults (env : Env) : Prop := ∀ c, env.fault c = none

/-- One pass of an interface in which every call succeeds, in the kernel state of the
label. Between two passes the kernel may change in any way, and states in which no pass
runs leave no label. -/
def PassIn (i : Interface) (e : Env × World) (i' : Interface) : Prop :=
  NoFaults e.1 ∧ i' = (i.reconcile e.1 e.2).2.1

/-- **What the last pass of a history leaves**: for every history of passes and kernel
states, if the last pass passes the sentinel gate and selects `gw`, the default route via
`gw` out of the interface's present index is in the kernel afterwards exactly when it was
there before or `gw` is not the gateway the daemon remembers. -/
theorem route_mem_reconcile_iff {c : Config} {name : Text} {es : List (Env × World)}
    (hc : c.staticArp = false) (hrun : Run PassIn (c.interface name) es i)
    (hf : NoFaults env) (hfollows : Follows env i w.tables gw) :
    (i.resolveIndex env).defaultRoute gw ∈ (i.reconcile env w).2.2.tables.fib ↔
      i.installedVia ≠ some gw ∨ (i.resolveIndex env).defaultRoute gw ∈ w.tables.fib := by
  have hnative : i.staticArp = false := by
    refine hrun.invariant (I := fun i => i.staticArp = false) ?_ hc
    rintro i e _ hi ⟨-, rfl⟩
    exact reconcile_native e.1 e.2 hi
  by_cases hvia : i.installedVia = some gw
  · have hnot : ¬ Programs env i w.tables gw := fun h => h.2.1 hvia
    rw [(reconcile_of_not_programs hnative hfollows hnot).2]
    exact ⟨Or.inr, fun h => h.resolve_left fun hne => hne hvia⟩
  · have hprograms : Programs env i w.tables gw := ⟨hfollows, hvia, hf _⟩
    rw [(reconcile_of_programs hnative hprograms).2]
    exact iff_of_true (mem_upsertFirst_self _ _ _) (Or.inl hvia)

end Passes

/-- The router of the first of `twoLinks`. -/
def router₀ : IPv6 := 0xfe800000000000000000000000000001#128

/-- The first interface of `twoLinks`. -/
def eth0 : Interface := defaults.interface "eth0".toList

theorem follows_eth0 (i : Interface) (hi : i.name = eth0.name)
    (hsentinel : i.sentinel = defaults.sentinel) : Follows twoLinks i leased.tables router₀ := by
  obtain ⟨name, metric, requireSentinel, staticArp, sentinel, index, via, mac⟩ := i
  obtain rfl : name = eth0.name := hi
  obtain rfl : sentinel = defaults.sentinel := hsentinel
  refine ⟨rfl, rfl, ?_, rfl⟩
  cases requireSentinel
  · rfl
  · rfl

/-- Another router of the first interface. -/
def newcomer : IPv6 := 0xfe800000000000000000000000000009#128

/-- It is the only one. -/
def rerouted : Env :=
  { twoLinks with
    routes6 := [⟨0, none, some 3, some newcomer, none, []⟩]
    neigh6 := [⟨3, some newcomer, none, 2⟩] }

/-- The interface after a pass that has selected the other router. -/
def eth0Rerouted : Interface := (eth0.reconcile rerouted leased).2.1

/-- The kernel after that pass. -/
def leasedRerouted : World := (eth0.reconcile rerouted leased).2.2

theorem follows_eth0Rerouted : Follows twoLinks eth0Rerouted leasedRerouted.tables router₀ :=
  ⟨rfl, by decide, by decide, by decide⟩

/-- The route moves when the router is another one. -/
theorem route_mem_rerouted : (eth0Rerouted.resolveIndex twoLinks).defaultRoute router₀ ∈
    (eth0Rerouted.reconcile twoLinks leasedRerouted).2.2.tables.fib := by
  have hrun : Run PassIn eth0 [(rerouted, leased)] eth0Rerouted :=
    Run.single ⟨fun _ => rfl, rfl⟩
  exact (route_mem_reconcile_iff rfl hrun (fun _ => rfl) follows_eth0Rerouted).mpr
    (Or.inl (by decide))

/-- **The result depends on what was observed**: two histories end in a pass over the same
kernel state, which passes the gate and selects the same router. The daemon that first
sees that state installs the route; the daemon that had installed it before others
removed it does not. -/
theorem removed_route_not_restored :
    ∃ (c : Config) (es : List (Env × World)) (i : Interface) (env : Env) (w : World)
      (gw : IPv6), c.staticArp = false ∧ Run PassIn (c.interface eth0.name) es i ∧
      NoFaults env ∧ Follows env i w.tables gw ∧
      Follows env (c.interface eth0.name) w.tables gw ∧
      (i.resolveIndex env).defaultRoute gw ∉ (i.reconcile env w).2.2.tables.fib ∧
      (i.resolveIndex env).defaultRoute gw ∈
        ((c.interface eth0.name).reconcile env w).2.2.tables.fib := by
  refine ⟨defaults, [(twoLinks, leased)], (eth0.reconcile twoLinks leased).2.1, twoLinks,
    leased, router₀, rfl, Run.single ⟨fun _ => rfl, rfl⟩, fun _ => rfl, ?_,
    follows_eth0 eth0 rfl rfl, by decide, by decide⟩
  exact follows_eth0 _ (by decide) (by decide)

end V4WithV6Nh.HostDaemon
