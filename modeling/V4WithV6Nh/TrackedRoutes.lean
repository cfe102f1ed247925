import Mathlib.Data.List.Nodup
import V4WithV6Nh.Restart

/-!
# No Return Route Without a Host

Within one lifetime the daemon withdraws the route of every entry it drops or rewrites, so
that the proto-149 routes in the kernel go to addresses of tracked hosts. `withdraw` asks
for the deletion of one route. That is enough as long as there is one: a replace overwrites
the first route with the destination, TOS and metric of the daemon's, and if others put a
route of theirs in front of it, the next replace makes a second one.

## Main results

* `tracked_of_run`: in every run in which nobody else adds a proto-149 route or puts a
  route in front of one, every proto-149 route goes to the address of a tracked host, and
  no evaluation takes the route of an address away.
* `orphan_behind_foreign_route`: with a foreign route in front, a release leaves a route.
-/

namespace V4WithV6Nh.Manager

/-! ### Slots of the FIB -/

/-- The routes that the kernel may replace by the route of an address. -/
def slot (ip4 : Text) : Route4 → Bool := (hostRoute ip4 0 0).sameKey

/-- A proto-149 route is where the daemon puts it, in front of all others of its slot. -/
structure InFront (fib : List Route4) : Prop where
  in_slot : ∀ r ∈ fib, r.proto = RT_PROTO → slot r.dst r = true
  in_front : ∀ ip4, ∀ r ∈ (fib.filter (slot ip4)).tail, r.proto ≠ RT_PROTO

section Slots

variable {fib : List Route4} {ip4 : Text} {r : Route4}

/-- The routes of a slot have its destination. -/
theorem dst_of_slot (h : slot ip4 r = true) : r.dst = ip4 :=
  (of_decide_eq_true h).2.1

/-- The daemon's route for an address is in the slot of the address. -/
theorem slot_hostRoute (ip4 : Text) (idx : ℕ) (nh : IPv6) :
    slot ip4 (hostRoute ip4 idx nh) = true := by
  simp [slot, Route4.sameKey, hostRoute]

/-- A deletion leaves the proto-149 routes in front. -/
theorem InFront.eraseP (h : InFront fib) (p : Route4 → Bool) : InFront (fib.eraseP p) where
  in_slot r hr := h.in_slot r (List.mem_of_mem_eraseP hr)
  in_front ip4 r hr := by
    have hsub : ((fib.eraseP p).filter (slot ip4)).Sublist (fib.filter (slot ip4)) :=
      List.eraseP_sublist.filter _
    exact h.in_front ip4 r (hsub.tail.subset hr)

/-- A replace leaves the proto-149 routes in front. -/
theorem InFront.upsertFirst (h : InFront fib) (ip4 : Text) (idx : ℕ) (nh : IPv6) :
    InFront (upsertFirst (slot ip4) (hostRoute ip4 idx nh) fib) where
  in_slot r hr hproto := by
    rcases eq_or_mem_of_mem_upsertFirst hr with rfl | hr
    · exact slot_hostRoute ip4 idx nh
    · exact h.in_slot r hr hproto
  in_front ip4' r hr := by
    by_cases hip : ip4' = ip4
    · subst hip
      rw [filter_upsertFirst_self (slot_hostRoute _ _ _), List.tail_cons] at hr
      exact h.in_front ip4' r hr
    · have hother : ∀ x, slot ip4 x = true → slot ip4' x = false := by
        intro x hx
        by_contra hx'
        exact hip ((dst_of_slot ((Bool.not_eq_false _).mp hx')).symm.trans (dst_of_slot hx))
      have hsame : (V4WithV6Nh.upsertFirst (slot ip4) (hostRoute ip4 idx nh) fib).filter
          (slot ip4') = fib.filter (slot ip4') :=
        (filter_upsertFirst_iff (hother _ (slot_hostRoute _ _ _))).mpr fun x hx =>
          hother x (List.find?_some hx)
      rw [hsame] at hr
      exact h.in_front ip4' r hr

/-- The proto-149 routes to an address are one at most. -/
theorem InFront.tail_filter_accepts (h : InFront fib) (ip4 : Text) :
    (fib.filter (hostRoutes ip4).accepts).tail = [] := by
  have haccepts : fib.filter (hostRoutes ip4).accepts =
      (fib.filter (slot ip4)).filter fun r => decide (r.proto = RT_PROTO) := by
    rw [List.filter_filter]
    refine List.filter_congr fun r hr => ?_
    by_cases hproto : r.proto = RT_PROTO
    · have hslot := of_decide_eq_true (h.in_slot r hr hproto)
      obtain ⟨htable, -, hlen, htos, hpriority⟩ := hslot
      simp only [hostRoute] at htable hlen htos hpriority
      simp [RouteFilter.accepts, hostRoutes, slot, Route4.sameKey, hostRoute, hproto, htable,
        hlen, htos, hpriority]
    · simp [RouteFilter.accepts, hostRoutes, hproto]
  have hfront := h.in_front ip4
  rw [haccepts]
  cases hslot : fib.filter (slot ip4) with
  | nil => rfl
  | cons x xs =>
      rw [hslot, List.tail_cons] at hfront
      have hnone : xs.filter (fun r => decide (r.proto = RT_PROTO)) = [] :=
        List.filter_eq_nil_iff.mpr fun r hr => by simp [hfront r hr]
      rw [List.filter_cons, hnone]
      split <;> rfl

/-- **A deletion takes the route of an address.** -/
theorem InFront.dst_ne_of_mem_eraseP (h : InFront fib) (hproto : r.proto = RT_PROTO)
    (hr : r ∈ fib.eraseP (hostRoutes ip4).accepts) : r.dst ≠ ip4 := by
  rintro rfl
  have hslot := of_decide_eq_true (h.in_slot r (List.mem_of_mem_eraseP hr) hproto)
  obtain ⟨htable, -, hlen, htos, -⟩ := hslot
  have haccepts : (hostRoutes r.dst).accepts r = true := by
    simp only [hostRoute] at htable hlen htos
    simp [RouteFilter.accepts, hostRoutes, hproto, htable, hlen, htos]
  rw [mem_eraseP_iff_of_pos haccepts, h.tail_filter_accepts] at hr
  cases hr

end Slots

/-! ### The methods -/

section Methods

variable {env : Env} {mac iface ip4 : Text} {w : World}

/-- Every proto-149 route goes to the address of a tracked host. -/
def Tracked (w : World) : Prop :=
  ∀ r ∈ w.tables.fib, r.proto = RT_PROTO → ∃ mac, w.address mac = some r.dst

/-- Tracking depends on the table and the routes only. -/
theorem Tracked.congr {w' : World} (ht : Tracked w) (hhosts : w'.hosts = w.hosts)
    (htables : w'.tables = w.tables) : Tracked w' := by
  intro r hr hproto
  obtain ⟨m, hm⟩ := ht r (htables ▸ hr) hproto
  exact ⟨m, by rw [World.address, hhosts]; exact hm⟩

/-- What a lease line does to the routes: nothing, or it withdraws the one of the entry
that it replaces. -/
theorem record_fib (iface mac ip4 : Text) (w : World) (hdel : env.fault .routeDel = none) :
    (record env iface mac ip4 w).tables.fib = w.tables.fib ∧
      (∀ h, w.hosts.get mac = some h → h.ip4 = ip4) ∨
    ∃ h, w.hosts.get mac = some h ∧ (record env iface mac ip4 w).tables.fib =
      w.tables.fib.eraseP (hostRoutes h.ip4).accepts := by
  obtain ⟨h, hh, -, hip, he⟩ | ⟨w₁, ⟨hh, rfl⟩ | ⟨h, hh, rfl⟩, he⟩ :=
    record_cases env iface mac ip4 w
  · refine Or.inl ⟨by rw [he], fun h' hh' => ?_⟩
    rw [← Option.some.inj (hh.symm.trans hh')]
    exact hip
  · refine Or.inl ⟨by rw [he], fun h' hh' => ?_⟩
    rw [hh] at hh'
    cases hh'
  · exact Or.inr ⟨h, hh, by rw [he]; exact withdraw_fib hdel⟩

/-- A withdrawal of the route of `mac` leaves the other routes tracked, if the entry of
`mac` is all that changes in the table. -/
theorem Tracked.of_eraseP {w' : World} {h : Host} (ht : Tracked w) (hf : InFront w.tables.fib)
    (hh : w.hosts.get mac = some h)
    (hfib : w'.tables.fib = w.tables.fib.eraseP (hostRoutes h.ip4).accepts)
    (hother : ∀ m, m ≠ mac → w'.hosts.get m = w.hosts.get m) : Tracked w' := by
  intro r hr hproto
  rw [hfib] at hr
  obtain ⟨m, hm⟩ := ht r (List.mem_of_mem_eraseP hr) hproto
  have hne : m ≠ mac := by
    rintro rfl
    rw [address_of_get hh] at hm
    exact hf.dst_ne_of_mem_eraseP hproto hr (Option.some.inj hm).symm
  exact ⟨m, by rw [World.address, hother m hne]; exact hm⟩

/-- A lease line keeps every route tracked. -/
theorem tracked_record (iface mac ip4 : Text) (hdel : env.fault .routeDel = none)
    (ht : Tracked w) (hf : InFront w.tables.fib) :
    Tracked (record env iface mac ip4 w) ∧ InFront (record env iface mac ip4 w).tables.fib := by
  obtain ⟨hfib, hip⟩ | ⟨h, hh, hfib⟩ := record_fib iface mac ip4 w hdel
  · refine ⟨fun r hr hproto => ?_, hfib ▸ hf⟩
    obtain ⟨m, hm⟩ := ht r (hfib ▸ hr) hproto
    refine ⟨m, ?_⟩
    by_cases hmac : m = mac
    · subst hmac
      obtain ⟨h, hh, hdst⟩ := Option.map_eq_some_iff.mp hm
      obtain ⟨h', hh', -, hip'⟩ := record_get_self env iface m ip4 w
      rw [address_of_get hh', hip', ← hip h hh, hdst]
    · rw [World.address, record_get_of_ne hmac]
      exact hm
  · exact ⟨ht.of_eraseP hf hh hfib fun m hm => record_get_of_ne hm, hfib ▸ hf.eraseP _⟩

/-- A release keeps every route tracked. -/
theorem tracked_onRelease (hdel : env.fault .routeDel = none) (ht : Tracked w)
    (hf : InFront w.tables.fib) :
    Tracked (onRelease env mac ip4 w) ∧ InFront (onRelease env mac ip4 w).tables.fib := by
  cases hh : w.hosts.get mac with
  | none =>
      rw [onRelease_of_get_eq_none hh]
      exact ⟨ht, hf⟩
  | some h =>
      have hfib : (onRelease env mac ip4 w).tables.fib = _ :=
        (onRelease_withdraws ip4 hh).2 hdel
      exact ⟨ht.of_eraseP hf hh hfib fun m hm => onRelease_get_of_ne hm, hfib ▸ hf.eraseP _⟩

section Evaluation

variable [UnicodeTables]

/-- What `evaluate` does to the routes: nothing, or it puts one for the address of the
host. -/
theorem evaluate_fib (env : Env) (mac : Text) (w : World) :
    (evaluate env mac w).2.tables.fib = w.tables.fib ∨
    ∃ h idx nh, w.hosts.get mac = some h ∧ (evaluate env mac w).2.tables.fib =
      upsertFirst (slot h.ip4) (hostRoute h.ip4 idx nh) w.tables.fib := by
  obtain ⟨e, he⟩ | ⟨he, -⟩ | ⟨h, idx, nh, gua, hh, -, -, he⟩ := evaluate_cases env mac w
  · exact Or.inl (by rw [he])
  · exact Or.inl (by rw [he])
  · have hip : (solicit env mac nh gua h).1.ip4 = h.ip4 := by rw [solicit_fst]
    rw [he]
    cases nh with
    | none => exact Or.inl rfl
    | some n =>
        simp only [follow]
        split
        · exact Or.inl rfl
        · simp only [install_fib, hip]
          split
          · exact Or.inl rfl
          · exact Or.inr ⟨h, idx, n, hh, rfl⟩

/-- `evaluate` keeps every route tracked, whatever fails. -/
theorem tracked_evaluate (env : Env) (mac : Text) (ht : Tracked w) (hf : InFront w.tables.fib) :
    Tracked (evaluate env mac w).2 ∧ InFront (evaluate env mac w).2.tables.fib := by
  rw [Tracked, evaluate_address]
  obtain hfib | ⟨h, idx, nh, hh, hfib⟩ := evaluate_fib env mac w
  · rw [hfib]
    exact ⟨ht, hf⟩
  · rw [hfib]
    refine ⟨fun r hr hproto => ?_, hf.upsertFirst _ _ _⟩
    rcases eq_or_mem_of_mem_upsertFirst hr with rfl | hr
    · exact ⟨mac, address_of_get hh⟩
    · exact ht r hr hproto

/-- `evaluate` takes the route of no address away. -/
theorem hasRoute_evaluate {ip4 : Text} (env : Env) (mac : Text) (hr : HasRoute ip4 w.tables) :
    HasRoute ip4 (evaluate env mac w).2.tables := by
  obtain ⟨r, hmem, hproto, hdst, hlen⟩ := hr
  obtain hfib | ⟨h, idx, nh, -, hfib⟩ := evaluate_fib env mac w
  · exact ⟨r, hfib ▸ hmem, hproto, hdst, hlen⟩
  · by_cases hip : h.ip4 = ip4
    · refine ⟨hostRoute h.ip4 idx nh, ?_, rfl, hip, rfl⟩
      rw [hfib]
      exact mem_upsertFirst_self _ _ _
    · have hslot : slot h.ip4 r = false := by
        by_contra hslot
        exact hip ((dst_of_slot ((Bool.not_eq_false _).mp hslot)).symm.trans hdst)
      refine ⟨r, ?_, hproto, hdst, hlen⟩
      rw [hfib]
      exact mem_upsertFirst_of_mem hmem hslot

/-- **Neighbour discovery takes no route away**: after any evaluations, whatever is in the
neighbour cache and whatever fails, every address that had a route has one. -/
theorem hasRoute_evaluateEach {ip4 : Text} (env : Env) (macs : List Text)
    (hr : HasRoute ip4 w.tables) : HasRoute ip4 (evaluateEach env macs w).2.tables :=
  evaluateEach_invariant (I := fun w => HasRoute ip4 w.tables)
    (fun mac _ _ h => hasRoute_evaluate env mac h) hr

end Evaluation

end Methods

/-! ### Runs -/

section Runs

variable [UnicodeTables]

/-- A turn in which every deletion of a route succeeds or finds none, or a change by others
that adds no proto-149 route. -/
def Deletes (w : World) : Happening → World → Prop
  | .turn env ev, w' => env.fault .routeDel = none ∧ w' = (step env ev w).2
  | .others t, w' =>
      (∀ r ∈ t.fib, r.proto = RT_PROTO → r ∈ w.tables.fib) ∧ w' = { w with tables := t }

/-- Others put nothing in front of a proto-149 route. -/
def LeavesInFront : Happening → Prop
  | .turn _ _ => True
  | .others t => ∀ ip4, ∀ r ∈ (t.fib.filter (slot ip4)).tail, r.proto ≠ RT_PROTO

/-- **One step keeps every route tracked.** -/
theorem tracked_step {w w' : World} {e : Happening} (ht : Tracked w)
    (hf : InFront w.tables.fib) (hstep : Deletes w e w') (hfront : LeavesInFront e) :
    Tracked w' ∧ InFront w'.tables.fib := by
  cases e with
  | turn env ev =>
      obtain ⟨hdel, rfl⟩ := hstep
      refine step_invariant (I := fun w => Tracked w ∧ InFront w.tables.fib) ?_ ?_ ?_ ⟨ht, hf⟩
      · exact fun mac w h => tracked_evaluate env mac h.1 h.2
      · intro line iface mac ip4 _ _
        obtain ⟨ht', hf'⟩ := tracked_record iface mac ip4 hdel ht hf
        refine ⟨ht'.congr persist_hosts persist_tables, ?_⟩
        rw [persist_tables]
        exact hf'
      · exact fun line mac ip4 _ _ => tracked_onRelease hdel ht hf
  | others t =>
      obtain ⟨hold, rfl⟩ := hstep
      exact ⟨fun r hr hproto => ht r (hold r hr hproto) hproto,
        ⟨fun r hr hproto => hf.in_slot r (hold r hr hproto) hproto, hfront⟩⟩

/-- **No orphan within one lifetime**: from an empty table and a kernel without proto-149
routes, in every run in which deletions succeed or find nothing and others neither add a
proto-149 route nor put a route in front of one, every proto-149 route goes to the address
of a tracked host; and no evaluation takes the route of an address away. -/
theorem tracked_of_run {t : Tables} {w : World} {es : List Happening}
    (hnone : ∀ r ∈ t.fib, r.proto ≠ RT_PROTO)
    (hrun : Run (fun w e w' => Deletes w e w' ∧ LeavesInFront e)
      { World.start with tables := t } es w) :
    Tracked w ∧ ∀ env macs ip4, HasRoute ip4 w.tables →
      HasRoute ip4 (evaluateEach env macs w).2.tables := by
  have hstart : Tracked { World.start with tables := t } ∧ InFront t.fib := by
    refine ⟨fun r hr hproto => absurd hproto (hnone r hr),
      ⟨fun r hr hproto => absurd hproto (hnone r hr), fun ip4 r hr => ?_⟩⟩
    exact hnone r (List.mem_filter.mp (List.mem_of_mem_tail hr)).1
  have hinv := hrun.invariant (I := fun w => Tracked w ∧ InFront w.tables.fib)
    (fun w e w' h ⟨hstep, hfront⟩ => tracked_step h.1 h.2 hstep hfront) hstart
  exact ⟨hinv.1, fun env macs ip4 hr => hasRoute_evaluateEach env macs hr⟩

end Runs

/-! ### A foreign route in front -/

/-- What leaves the agreement undisturbed adds no proto-149 route. -/
theorem deletes_of_undisturbed [UnicodeTables] {ifindex : Text → Option ℕ} {w w' : World}
    {e : Happening} (h : Undisturbed ifindex w e w') : Deletes w e w' := by
  cases e with
  | turn env ev => exact ⟨h.1 _, by rw [h.2.2]⟩
  | others t => exact ⟨fun r hr hproto => (h.1 r hproto).mp hr, h.2⟩

/-- The route that others add is behind those of the hosts, and alone in its slot. -/
theorem leavesInFront_crowded : LeavesInFront (.others crowded.tables) := by
  intro ip4 r hr
  have hdst : (crowded.tables.fib.map Route4.dst).Nodup := by decide
  have hle : (crowded.tables.fib.filter (slot ip4)).length ≤ 1 := by
    rw [← List.countP_eq_length_filter]
    refine le_trans ?_ (List.nodup_iff_count_le_one.mp hdst ip4)
    rw [List.count, List.countP_map]
    exact List.countP_mono_left fun r _ hslot => beq_iff_eq.mpr (dst_of_slot hslot)
  have hnil : (crowded.tables.fib.filter (slot ip4)).tail = [] := by
    rw [← List.length_eq_zero_iff, List.length_tail]
    omega
  rw [hnil] at hr
  cases hr

theorem leavesInFront_handover : ∀ e ∈ handover, LeavesInFront e := by
  simp only [handover, List.forall_mem_cons]
  exact ⟨trivial, trivial, leavesInFront_crowded, trivial, trivial, nofun⟩

/-- Every route is tracked when the address has been handed over. -/
theorem tracked_of_run_handover : Tracked handedOver ∧ ∀ env macs ip4,
    HasRoute ip4 handedOver.tables → HasRoute ip4 (evaluateEach env macs handedOver).2.tables :=
  tracked_of_run (t := World.start.tables) (by decide) (run_handover.mono_of_mem
    fun _ e he _ h => ⟨deletes_of_undisturbed h.2, leavesInFront_handover e he⟩)

/-- A static route to the address of the first host. -/
def foreignRoute : Route4 :=
  ⟨RT_TABLE_MAIN, "10.0.0.1".toList, 32, 0, 0, some 3, 4, some "10.0.0.254".toList, none⟩

/-- The first host has moved to another link-local address. -/
def moved : Env := { twoHosts with neigh6 := [⟨3, some nhB, some "aa:00:00:00:00:01".toList, 2⟩] }

/-- The kernel with the static route in front of the route that `addA` installed. -/
def prepended : World :=
  { (step twoHosts addA World.start).2 with
    tables := ⟨foreignRoute :: (step twoHosts addA World.start).2.tables.fib, []⟩ }

/-- A turn without faults can be taken. -/
theorem deletes_turn [UnicodeTables] {env : Env} (hf : NoFaults env) (ev : Event) (w : World) :
    Deletes w (.turn env ev) (step env ev w).2 :=
  ⟨hf _, rfl⟩

/-- **A foreign route in front leaves an orphan**: others put a static route in front of the
route that `addA` installed, the host moves and its new route replaces the static one, and
the release withdraws one of the two proto-149 routes. -/
theorem orphan_behind_foreign_route :
    ∃ (es : List Happening) (w : World), Run Deletes World.start es w ∧ ¬ Tracked w := by
  have hothers : Deletes (step twoHosts addA World.start).2 (.others prepended.tables)
      prepended := by
    refine ⟨fun r hr hproto => ?_, rfl⟩
    rcases List.mem_cons.mp hr with rfl | hr
    · cases hproto
    · exact hr
  have hmoved : NoFaults moved := fun _ => rfl
  have hrun := ((Run.single (deletes_turn (fun _ => rfl) addA World.start)).snoc hothers).append
    ((Run.single (deletes_turn hmoved .sweep _)).snoc (deletes_turn hmoved delA _))
  refine ⟨_, _, hrun, fun htracked => ?_⟩
  obtain ⟨mac, hmac⟩ := htracked (hostRoute "10.0.0.1".toList 3 nhA) (by decide) rfl
  have hempty : (step moved delA (step moved .sweep prepended).2).2.hosts.entries = [] := by
    decide
  rw [World.address, OrderedDict.get, hempty] at hmac
  cases hmac

end V4WithV6Nh.Manager
