import V4WithV6Nh.Release
import V4WithV6Nh.TrackedRoutes

/-!
# The Kernel Mirrors the Table

`agrees_of_noSharing` says that the route of every remembered next hop is in the kernel, and
`tracked_of_run` that every route there is one of a tracked host. Together, and with a closer
look at what a replace and a withdrawal do, the proto-149 routes are the remembered ones and no
others. So what the kernel has after a sweep is said by the leases, by what the sweep reads, and
by what the kernel had before it: the memory of the daemon drops out.

## Main results

* `mirrored_step`: a turn keeps the proto-149 routes the remembered ones.
* `mem_fib_after_sweep_iff`: which proto-149 routes there are after a sweep, in every run in
  which nothing fails and nobody else touches them.
-/

namespace V4WithV6Nh.Manager

/-! ### Remembered routes -/

/-- The route of a next hop that the table remembers. -/
def Remembered (ifindex : Text → Option ℕ) (w : World) (r : Route4) : Prop :=
  ∃ mac h idx nh, w.hosts.get mac = some h ∧ h.nh = some nh ∧ ifindex h.iface = some idx ∧
    r = hostRoute h.ip4 idx nh

/-- Every proto-149 route of the kernel is remembered. -/
def Known (ifindex : Text → Option ℕ) (w : World) : Prop :=
  ∀ r ∈ w.tables.fib, r.proto = RT_PROTO → Remembered ifindex w r

/-- What the daemon keeps right as long as nothing fails: no two hosts share an address, the
remembered routes are in the kernel, where they are found first, and no others. -/
structure Mirrored (ifindex : Text → Option ℕ) (w : World) : Prop where
  distinct : Distinct w
  agrees : Agrees ifindex w
  inFront : InFront w.tables.fib
  known : Known ifindex w

/-- The next hop that an evaluation finds; none if the routes cannot be read. -/
def foundNexthop [UnicodeTables] (env : Env) (idx : ℕ) (mac : Text) : Option IPv6 :=
  match bestNexthop env idx mac with
  | .ok r => r.1
  | .error _ => none

section Methods

variable {ifindex : Text → Option ℕ} {env : Env} {mac iface ip4 : Text} {idx : ℕ} {nh : IPv6}
  {w w' : World} {h : Host} {r : Route4}

/-- **The proto-149 routes are the remembered ones.** -/
theorem Mirrored.mem_iff (hm : Mirrored ifindex w) (hproto : r.proto = RT_PROTO) :
    r ∈ w.tables.fib ↔ Remembered ifindex w r := by
  refine ⟨fun hr => hm.known r hr hproto, ?_⟩
  rintro ⟨mac, h, idx, nh, hh, hnh, hidx, rfl⟩
  obtain ⟨idx', hidx', hmem⟩ := hm.agrees mac h hh nh hnh
  obtain rfl := Option.some.inj (hidx.symm.trans hidx')
  exact hmem

/-- A remembered route stays remembered if every entry keeps its lease and its next hop. -/
theorem Remembered.of_get (hr : Remembered ifindex w r)
    (hget : ∀ m h, w.hosts.get m = some h → r.dst = h.ip4 → ∃ h', w'.hosts.get m = some h' ∧
      h'.iface = h.iface ∧ h'.ip4 = h.ip4 ∧ h'.nh = h.nh) : Remembered ifindex w' r := by
  obtain ⟨m, h, idx, nh, hh, hnh, hidx, rfl⟩ := hr
  obtain ⟨h', hh', hiface, hip, hnh'⟩ := hget m h hh rfl
  exact ⟨m, h', idx, nh, hh', hnh'.trans hnh, hiface ▸ hidx, by rw [hip]⟩

/-- It depends on the table and the routes only. -/
theorem Known.congr (hk : Known ifindex w) (hhosts : w'.hosts = w.hosts)
    (htables : w'.tables = w.tables) : Known ifindex w' := by
  intro r hr hproto
  obtain hrem := hk r (htables ▸ hr) hproto
  exact hrem.of_get fun m h hh _ => ⟨h, by rw [hhosts, hh], rfl, rfl, rfl⟩

/-- A withdrawal takes the only route of an address away. -/
theorem Known.of_eraseP (hk : Known ifindex w) (hf : InFront w.tables.fib)
    (hh : w.hosts.get mac = some h)
    (hfib : w'.tables.fib = w.tables.fib.eraseP (hostRoutes h.ip4).accepts)
    (hother : ∀ m, m ≠ mac → w'.hosts.get m = w.hosts.get m) : Known ifindex w' := by
  intro r hr hproto
  rw [hfib] at hr
  refine (hk r (List.mem_of_mem_eraseP hr) hproto).of_get fun m h' hh' hdst => ?_
  have hne : m ≠ mac := by
    rintro rfl
    obtain rfl := Option.some.inj (hh.symm.trans hh')
    exact hf.dst_ne_of_mem_eraseP hproto hr hdst
  exact ⟨h', by rw [hother m hne, hh'], rfl, rfl, rfl⟩

/-- A lease line keeps every route remembered. -/
theorem known_record (iface mac ip4 : Text) (hdel : env.fault .routeDel = none)
    (hk : Known ifindex w) (hf : InFront w.tables.fib) :
    Known ifindex (record env iface mac ip4 w) := by
  obtain ⟨h, hh, -, -, he⟩ | ⟨w₁, ⟨hh, rfl⟩ | ⟨h, hh, rfl⟩, he⟩ :=
    record_cases env iface mac ip4 w
  · intro r hr hproto
    rw [he] at hr ⊢
    refine (hk r hr hproto).of_get fun m h' hh' _ => ?_
    by_cases hm : m = mac
    · subst hm
      obtain rfl := Option.some.inj (hh.symm.trans hh')
      exact ⟨_, OrderedDict.get_set_self _ _ _, rfl, rfl, rfl⟩
    · exact ⟨h', by rw [OrderedDict.get_set_of_ne _ _ hm, hh'], rfl, rfl, rfl⟩
  · intro r hr hproto
    rw [he] at hr
    refine (hk r hr hproto).of_get fun m h' hh' _ => ?_
    have hm : m ≠ mac := by
      rintro rfl
      cases hh.symm.trans hh'
    exact ⟨h', by rw [record_get_of_ne hm, hh'], rfl, rfl, rfl⟩
  · refine hk.of_eraseP hf hh ?_ fun m hm => record_get_of_ne hm
    rw [he]
    exact withdraw_fib hdel

/-- A release keeps every route remembered. -/
theorem known_onRelease (hdel : env.fault .routeDel = none) (hk : Known ifindex w)
    (hf : InFront w.tables.fib) : Known ifindex (onRelease env mac ip4 w) := by
  cases hh : w.hosts.get mac with
  | none =>
      rw [onRelease_of_get_eq_none hh]
      exact hk
  | some h =>
      exact hk.of_eraseP hf hh ((onRelease_withdraws ip4 hh).2 hdel) fun m hm =>
        onRelease_get_of_ne hm

/-- **A replace takes the place of the only route of an address.** -/
theorem InFront.eq_or_dst_ne (hf : InFront w.tables.fib) (hproto : r.proto = RT_PROTO)
    (hr : r ∈ V4WithV6Nh.upsertFirst (slot ip4) (hostRoute ip4 idx nh) w.tables.fib) :
    r = hostRoute ip4 idx nh ∨ r ∈ w.tables.fib ∧ r.dst ≠ ip4 := by
  obtain rfl | hmem := eq_or_mem_of_mem_upsertFirst hr
  · exact .inl rfl
  · by_cases hdst : r.dst = ip4
    · -- in its slot a proto-149 route is the first, which is the new one
      have hslot : slot ip4 r = true := hdst ▸ hf.in_slot r hmem hproto
      have hfilter := List.mem_filter.mpr ⟨hr, hslot⟩
      rw [filter_upsertFirst_self (slot_hostRoute ip4 idx nh)] at hfilter
      rcases List.mem_cons.mp hfilter with heq | htail
      · exact .inl heq
      · exact absurd hproto (hf.in_front ip4 r htail)
    · exact .inr ⟨hmem, hdst⟩

/-- A table that remembers nothing mirrors a kernel without proto-149 routes. -/
theorem mirrored_of_fresh (hfresh : ∀ mac h, w.hosts.get mac = some h → h.nh = none)
    (hd : Distinct w) (hnone : ∀ r ∈ w.tables.fib, r.proto ≠ RT_PROTO) : Mirrored ifindex w where
  distinct := hd
  agrees := agrees_of_fresh hfresh
  inFront :=
    { in_slot := fun r hr hproto => absurd hproto (hnone r hr)
      in_front := fun _ r hr => hnone r (List.mem_filter.mp (List.mem_of_mem_tail hr)).1 }
  known r hr hproto := absurd hproto (hnone r hr)

section Evaluation

variable [UnicodeTables]

/-- What an evaluation leaves of the entry: its next hop is the one found, or else the one
before. -/
theorem evaluate_get_nh (hg : Guarded env) (hh : w.hosts.get mac = some h)
    (hidx : linkLookup env.links h.iface = some idx) :
    ∃ h', (evaluate env mac w).2.hosts.get mac = some h' ∧ h'.iface = h.iface ∧
      h'.ip4 = h.ip4 ∧ h'.nh = (foundNexthop env idx mac).or h.nh := by
  obtain ⟨r, hbest⟩ : ∃ r, bestNexthop env idx mac = .ok r := by
    rw [bestNexthop, (hg mac).2]
    simp only
    split <;> exact ⟨_, rfl⟩
  obtain ⟨found, gua⟩ := r
  have hfound : foundNexthop env idx mac = found := by rw [foundNexthop, hbest]
  have hsol := solicit_fst env mac found gua h
  rw [evaluate_of_best hg hh hidx hbest, hfound]
  cases found with
  | none => exact ⟨_, OrderedDict.get_set_self _ _ _, hsol ▸ rfl, hsol ▸ rfl, hsol ▸ rfl⟩
  | some n =>
      simp only [follow]
      split
      · rename_i hn
        exact ⟨_, OrderedDict.get_set_self _ _ _, hsol ▸ rfl, hsol ▸ rfl, hn⟩
      · exact ⟨_, OrderedDict.get_set_self _ _ _, hsol ▸ rfl, hsol ▸ rfl, rfl⟩

/-- An evaluation keeps every route remembered if its request does not fail. -/
theorem known_evaluate (hfault : env.fault (.routeReplace mac) = none)
    (hs : Stable ifindex env) (hk : Known ifindex w) (hf : InFront w.tables.fib) :
    Known ifindex (evaluate env mac w).2 := by
  obtain ⟨e, he⟩ | ⟨he, -⟩ | ⟨h, idx, nh, gua, hh, hidx, -, he⟩ := evaluate_cases env mac w
  · rw [he]
    exact hk
  · rw [he]
    exact hk
  · have hsol := solicit_fst env mac nh gua h
    -- the entries of the others are as before, and that of the host unless its route moves
    have hother : ∀ m h', w.hosts.get m = some h' → m ≠ mac →
        (evaluate env mac w).2.hosts.get m = some h' := fun m h' hh' hm => by
      rw [evaluate_get_of_ne hm, hh']
    have hentry : ∀ {r h₁}, Remembered ifindex w r →
        (evaluate env mac w).2.hosts.get mac = some h₁ → h₁.iface = h.iface →
        h₁.ip4 = h.ip4 → h₁.nh = h.nh → Remembered ifindex (evaluate env mac w).2 r := by
      intro r h₁ hrem hh₁ hiface hip hnh
      refine hrem.of_get fun m h' hh' _ => ?_
      by_cases hm : m = mac
      · subst hm
        obtain rfl := Option.some.inj (hh.symm.trans hh')
        exact ⟨h₁, hh₁, hiface, hip, hnh⟩
      · exact ⟨h', hother m h' hh' hm, rfl, rfl, rfl⟩
    intro r hr hproto
    cases nh with
    | none =>
        have hself : (evaluate env mac w).2.hosts.get mac =
            some (solicit env mac none gua h).1 := by
          rw [he]
          exact OrderedDict.get_set_self _ _ _
        rw [he] at hr
        exact hentry (hk r hr hproto) hself (hsol ▸ rfl) (hsol ▸ rfl) (hsol ▸ rfl)
    | some n =>
        by_cases hnh : (solicit env mac (some n) gua h).1.nh = some n
        · have hself : (evaluate env mac w).2.hosts.get mac =
              some (solicit env mac (some n) gua h).1 := by
            rw [he]
            simp only [follow, if_pos hnh]
            exact OrderedDict.get_set_self _ _ _
          rw [he] at hr
          simp only [follow, if_pos hnh] at hr
          exact hentry (hk r hr hproto) hself (hsol ▸ rfl) (hsol ▸ rfl) (hsol ▸ rfl)
        · have hip : (solicit env mac (some n) gua h).1.ip4 = h.ip4 := by rw [hsol]
          have hself : (evaluate env mac w).2.hosts.get mac =
              some { (solicit env mac (some n) gua h).1 with nh := some n } := by
            rw [he]
            simp only [follow, if_neg hnh]
            exact OrderedDict.get_set_self _ _ _
          rw [he] at hr
          simp only [follow, if_neg hnh, install_fib, hfault, hip] at hr
          obtain rfl | ⟨hmem, hdst⟩ := hf.eq_or_dst_ne hproto hr
          · exact ⟨mac, _, idx, n, hself, rfl, by rw [← hs, ← hidx, hsol], by rw [hip]⟩
          · refine (hk r hmem hproto).of_get fun m h' hh' hdst' => ?_
            have hm : m ≠ mac := by
              rintro rfl
              obtain rfl := Option.some.inj (hh.symm.trans hh')
              exact hdst hdst'
            exact ⟨h', hother m h' hh' hm, rfl, rfl, rfl⟩

/-- An evaluation without a failure. -/
theorem mirrored_evaluate (hf : NoFaults env) (hs : Stable ifindex env) (mac : Text)
    (hm : Mirrored ifindex w) : Mirrored ifindex (evaluate env mac w).2 where
  distinct := distinct_evaluate env mac hm.distinct
  agrees := agrees_evaluate (hf _) hs hm.distinct hm.agrees
  inFront := by
    obtain hfib | ⟨h, idx, nh, -, hfib⟩ := evaluate_fib env mac w
    · exact hfib ▸ hm.inFront
    · exact hfib ▸ hm.inFront.upsertFirst _ _ _
  known := known_evaluate (hf _) hs hm.known hm.inFront

end Evaluation

end Methods

/-! ### Runs -/

section Runs

variable [UnicodeTables] {ifindex : Text → Option ℕ} {env : Env} {w w' : World} {r : Route4}

/-- A step of a run in which nothing fails and nobody else touches the proto-149 routes or
puts a route in front of one, and in which no two hosts are given one address. -/
def Quiet (ifindex : Text → Option ℕ) (w : World) (e : Happening) (w' : World) : Prop :=
  NoSharing w e ∧ Undisturbed ifindex w e w' ∧ LeavesInFront e

/-- **One step keeps the proto-149 routes the remembered ones.** -/
theorem mirrored_step {e : Happening} (hm : Mirrored ifindex w) (hstep : Quiet ifindex w e w') :
    Mirrored ifindex w' := by
  obtain ⟨hfree, hstep, hfront⟩ := hstep
  obtain ⟨hd, ha⟩ := agrees_step ⟨hm.distinct, hm.agrees⟩ hfree hstep
  cases e with
  | others t =>
      obtain ⟨hroutes, rfl⟩ := hstep
      refine ⟨hd, ha, ⟨fun r hr hproto => ?_, hfront⟩, fun r hr hproto => ?_⟩
      · exact hm.inFront.in_slot r ((hroutes r hproto).mp hr) hproto
      · exact hm.known r ((hroutes r hproto).mp hr) hproto
  | turn env ev =>
      obtain ⟨hfaults, hs, hturn⟩ := hstep
      obtain rfl : (step env ev w).2 = w' := by rw [hturn]
      refine step_invariant (I := Mirrored ifindex) ?_ ?_ ?_ hm
      · exact fun mac w h => mirrored_evaluate hfaults hs mac h
      · rintro line iface mac ip4 rfl hread
        have hfib : InFront (record env iface mac ip4 w).tables.fib := by
          obtain ⟨hfib, -⟩ | ⟨h, -, hfib⟩ := record_fib iface mac ip4 w (hfaults _)
          · exact hfib ▸ hm.inFront
          · exact hfib ▸ hm.inFront.eraseP _
        exact
          { distinct := (distinct_record env iface hm.distinct
              (hfree iface mac ip4 hread)).congr persist_hosts
            agrees := (agrees_record env iface mac ip4 hm.distinct hm.agrees).congr
              persist_hosts persist_tables
            inFront := by rwa [persist_tables]
            known := (known_record iface mac ip4 (hfaults _) hm.known hm.inFront).congr
              persist_hosts persist_tables }
      · intro line mac ip4 _ _
        refine ⟨distinct_onRelease hm.distinct, agrees_onRelease hm.distinct hm.agrees, ?_,
          known_onRelease (hfaults _) hm.known hm.inFront⟩
        cases hh : w.hosts.get mac with
        | none => exact (onRelease_of_get_eq_none hh).symm ▸ hm.inFront
        | some h => exact ((onRelease_withdraws ip4 hh).2 (hfaults _)).symm ▸ hm.inFront.eraseP _

/-! ### A sweep -/

/-- What a sweep leaves of an entry. -/
theorem reconcileAll_get_nh (hg : Guarded env) {mac : Text} {h : Host} {idx : ℕ}
    (hh : w.hosts.get mac = some h) (hidx : linkLookup env.links h.iface = some idx) :
    ∃ h', (reconcileAll env w).2.hosts.get mac = some h' ∧ h'.iface = h.iface ∧
      h'.ip4 = h.ip4 ∧ h'.nh = (foundNexthop env idx mac).or h.nh := by
  have hkeep : ∀ macs w', mac ∉ macs →
      (evaluateEach env macs w').2.hosts.get mac = w'.hosts.get mac := fun macs w' hmac =>
    evaluateEach_invariant (I := fun w₁ => w₁.hosts.get mac = w'.hosts.get mac)
      (fun m hm w₁ h => (evaluate_get_of_ne (ne_of_mem_of_not_mem hm hmac).symm).trans h) rfl
  obtain ⟨before, after, hbefore, hafter, hsweep⟩ := evaluateEach_once
    (evaluateEach_ok hg w.hosts.keys w) w.hosts.nodup (OrderedDict.mem_keys_iff.mpr ⟨h, hh⟩)
  obtain ⟨h', hh', hrest⟩ := evaluate_get_nh hg ((hkeep before w hbefore).trans hh) hidx
  refine ⟨h', ?_, hrest⟩
  rw [reconcileAll, hsweep, hkeep after _ hafter, hh']

/-- A sweep is a turn. -/
theorem mirrored_reconcileAll (hf : NoFaults env) (hs : Stable ifindex env)
    (hm : Mirrored ifindex w) : Mirrored ifindex (reconcileAll env w).2 :=
  mirrored_step (e := .turn env .sweep) hm
    ⟨trivial, ⟨hf, hs, Prod.ext (step_ok hf.guarded .sweep w) rfl⟩, trivial⟩

/-- What a sweep leaves, for a table that mirrors the kernel. -/
theorem Mirrored.mem_reconcileAll_iff (hm : Mirrored ifindex w) (hf : NoFaults env)
    (hs : Stable ifindex env) (hproto : r.proto = RT_PROTO) :
    r ∈ (reconcileAll env w).2.tables.fib ↔
      ∃ mac iface ip4 idx nh, w.lease mac = some (iface, ip4) ∧ ifindex iface = some idx ∧
        r = hostRoute ip4 idx nh ∧ (foundNexthop env idx mac = some nh ∨
          foundNexthop env idx mac = none ∧ r ∈ w.tables.fib) := by
  have hm' := mirrored_reconcileAll hf hs hm
  have hlease : (reconcileAll env w).2.lease = w.lease := evaluateEach_lease env _ w
  have hentry : ∀ {mac iface ip4 idx}, w.lease mac = some (iface, ip4) →
      ifindex iface = some idx → ∃ h h', w.hosts.get mac = some h ∧ h.iface = iface ∧
        h.ip4 = ip4 ∧ (reconcileAll env w).2.hosts.get mac = some h' ∧ h'.iface = iface ∧
          h'.ip4 = ip4 ∧ h'.nh = (foundNexthop env idx mac).or h.nh := by
    intro mac iface ip4 idx hl hidx
    obtain ⟨h, hh, heq⟩ := Option.map_eq_some_iff.mp hl
    obtain ⟨rfl, rfl⟩ := Prod.mk.inj heq
    obtain ⟨h', hh', hiface, hip, hnh⟩ :=
      reconcileAll_get_nh hf.guarded hh ((hs h.iface).trans hidx)
    exact ⟨h, h', hh, rfl, rfl, hh', hiface, hip, hnh⟩
  rw [hm'.mem_iff hproto]
  constructor
  · rintro ⟨mac, h', idx, nh, hh', hnh', hidx, rfl⟩
    have hl : w.lease mac = some (h'.iface, h'.ip4) := by
      rw [← hlease, World.lease, hh', Option.map_some]
    obtain ⟨h, h₁, hh, hiface, hip, hh₁, -, -, hnh⟩ := hentry hl hidx
    obtain rfl := Option.some.inj (hh'.symm.trans hh₁)
    refine ⟨mac, h'.iface, h'.ip4, idx, nh, hl, hidx, rfl, ?_⟩
    cases hfound : foundNexthop env idx mac with
    | some n =>
        rw [hfound, hnh', Option.some_or] at hnh
        exact .inl hnh.symm
    | none =>
        rw [hfound, hnh', Option.none_or] at hnh
        refine .inr ⟨rfl, (hm.mem_iff hproto).mpr ⟨mac, h, idx, nh, hh, hnh.symm, ?_, ?_⟩⟩
        · rw [hiface, hidx]
        · rw [hip]
  · rintro ⟨mac, iface, ip4, idx, nh, hl, hidx, rfl, hnext⟩
    obtain ⟨h, h', hh, hiface, hip, hh', hiface', hip', hnh⟩ := hentry hl hidx
    refine ⟨mac, h', idx, nh, hh', ?_, hiface' ▸ hidx, by rw [hip']⟩
    rcases hnext with hfound | ⟨hfound, hmem⟩
    · rw [hnh, hfound, Option.some_or]
    · obtain ⟨m, h₁, idx₁, nh₁, hh₁, hnh₁, -, heq⟩ := (hm.mem_iff hproto).mp hmem
      have hdst : h₁.ip4 = ip4 := (congrArg Route4.dst heq).symm
      have hvia : some nh = some nh₁ := congrArg Route4.via heq
      -- the address is that of one host only
      obtain rfl : m = mac := hm.distinct m mac ip4 (hdst ▸ address_of_get hh₁)
        (hip ▸ address_of_get hh)
      obtain rfl := Option.some.inj (hh.symm.trans hh₁)
      rw [hnh, hfound, Option.none_or, hnh₁, hvia]

/-- **The kernel after a sweep**: from a table that remembers nothing and a kernel without
proto-149 routes, in every run in which nothing fails, no two hosts are given one address, and
others leave the proto-149 routes alone and in front, a sweep leaves exactly these proto-149
routes: for each lease on an interface that there is, the one through the next hop that the sweep
finds, and where it finds none the one that was there before. -/
theorem mem_fib_after_sweep_iff {w₀ : World} {es : List Happening}
    (hfresh : ∀ mac h, w₀.hosts.get mac = some h → h.nh = none) (hd : Distinct w₀)
    (hnone : ∀ r ∈ w₀.tables.fib, r.proto ≠ RT_PROTO) (hrun : Run (Quiet ifindex) w₀ es w)
    (hf : NoFaults env) (hs : Stable ifindex env) (hproto : r.proto = RT_PROTO) :
    r ∈ (reconcileAll env w).2.tables.fib ↔
      ∃ mac iface ip4 idx nh, w.lease mac = some (iface, ip4) ∧ ifindex iface = some idx ∧
        r = hostRoute ip4 idx nh ∧ (foundNexthop env idx mac = some nh ∨
          foundNexthop env idx mac = none ∧ r ∈ w.tables.fib) := by
  have hm : Mirrored ifindex w :=
    hrun.invariant (fun w e w' hm hstep => mirrored_step hm hstep)
      (mirrored_of_fresh hfresh hd hnone)
  exact hm.mem_reconcileAll_iff hf hs hproto

end Runs

/-- Both hosts have left the neighbour cache. -/
def silent : Env := { twoHosts with neigh6 := [] }

/-- A sweep leaves the address that was handed over where it is. -/
theorem mem_fib_after_sweep_handover : hostRoute "10.0.0.1".toList 3 nhB ∈
    (reconcileAll silent handedOver).2.tables.fib := by
  have hrun : Run (Quiet (linkLookup twoHosts.links)) World.start handover handedOver :=
    run_handover.mono_of_mem fun _ e he _ h => ⟨h.1, h.2, leavesInFront_handover e he⟩
  have hf : NoFaults silent := fun _ => rfl
  have hs : Stable (linkLookup twoHosts.links) silent := fun _ => rfl
  refine (mem_fib_after_sweep_iff fresh_start distinct_start nofun hrun hf hs rfl).mpr ?_
  exact ⟨"aa:00:00:00:00:02".toList, "eth0".toList, "10.0.0.1".toList, 3, nhB, by decide, rfl,
    rfl, .inr ⟨by decide, by decide⟩⟩

end V4WithV6Nh.Manager
