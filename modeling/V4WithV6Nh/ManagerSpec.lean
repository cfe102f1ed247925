import V4WithV6Nh.Manager

/-!
# What the Manager's Methods Do and Leave Alone

One specification per method of `Manager`. A method that programs the kernel for one
address leaves the table, the state file and the routes to every other address alone
(`SameElsewhere`); `evaluate_cases` lists everything `evaluate` can do, and the frame
lemmas after it say that `evaluate mac` touches the entry of `mac` and the routes to its
address, and nothing else. The results about runs rest on these and never unfold a
method again.
-/

namespace V4WithV6Nh.Manager

/-! ### What the methods leave alone -/

/-- `t'` has the routes of `t` to every destination but `ip4`. -/
def SameElsewhere (ip4 : Text) (t t' : Tables) : Prop :=
  ∀ r : Route4, r.dst ≠ ip4 → (r ∈ t'.fib ↔ r ∈ t.fib)

theorem SameElsewhere.refl (ip4 : Text) (t : Tables) : SameElsewhere ip4 t t :=
  fun _ _ => Iff.rfl

theorem SameElsewhere.trans {ip4 : Text} {t t' t'' : Tables}
    (h : SameElsewhere ip4 t t') (h' : SameElsewhere ip4 t' t'') :
    SameElsewhere ip4 t t'' :=
  fun r hr => (h' r hr).trans (h r hr)

section Programming

variable {env : Env} {mac mac' ip4 : Text} {idx : ℕ} {nh : IPv6} {w : World} {h : Host}

/-- `withdraw` touches neither the table nor the state file. -/
@[simp] theorem withdraw_hosts : (withdraw env ip4 w).hosts = w.hosts := by
  rw [withdraw]
  split <;> rfl

/-- `withdraw` records the answer to its request. -/
theorem withdraw_trace :
    ∃ result, (withdraw env ip4 w).trace = .withdrew ip4 result :: w.trace := by
  rw [withdraw]
  split
  · exact ⟨_, rfl⟩
  · exact ⟨_, rfl⟩

/-- `withdraw` removes the first return route to the address unless its request fails. -/
theorem withdraw_fib (hf : env.fault .routeDel = none) :
    (withdraw env ip4 w).tables.fib = w.tables.fib.eraseP (hostRoutes ip4).accepts := by
  rw [withdraw, hf]
  by_cases hany : w.tables.fib.any (hostRoutes ip4).accepts
  · simp only [routeDel, if_pos hany]
  · simp only [routeDel, if_neg hany]
    refine (List.eraseP_of_forall_not fun r hr hacc => hany ?_).symm
    exact List.any_eq_true.mpr ⟨r, hr, hacc⟩

/-- `withdraw` touches no route to another address. -/
theorem withdraw_elsewhere : SameElsewhere ip4 w.tables (withdraw env ip4 w).tables := by
  intro r hr
  rw [withdraw]
  split
  · exact Iff.rfl
  · rename_i t ht
    rw [(routeDel_ok ht).1]
    refine List.mem_eraseP_of_neg ?_
    simp [RouteFilter.accepts, hostRoutes, hr]

/-- `install` touches neither the table nor the state file. -/
@[simp] theorem install_hosts : (install env mac idx ip4 nh w).hosts = w.hosts := by
  rw [install]
  split
  · rfl
  · split <;> rfl

/-- The FIB after `install`: deleting the IPv4 neighbour does not touch it. -/
theorem install_fib : (install env mac idx ip4 nh w).tables.fib =
    match env.fault (.routeReplace mac) with
    | some _ => w.tables.fib
    | none => upsertFirst (hostRoute ip4 idx nh).sameKey (hostRoute ip4 idx nh)
        w.tables.fib := by
  rw [install]
  cases hf : env.fault (.routeReplace mac) with
  | some e => rfl
  | none =>
      simp only [routeReplace_none]
      split
      · rfl
      · rename_i t ht
        exact neighDel_fib ht

/-- `install` records the answer to its request. -/
theorem install_trace : (install env mac idx ip4 nh w).trace =
    .replaced mac ip4 nh (env.fault (.routeReplace mac)) :: w.trace := by
  rw [install]
  cases env.fault (.routeReplace mac) with
  | some e => rfl
  | none =>
      simp only [routeReplace_none]
      split <;> rfl

/-- `install` touches no route to another address. -/
theorem install_elsewhere :
    SameElsewhere ip4 w.tables (install env mac idx ip4 nh w).tables := by
  intro r hr
  rw [install_fib]
  split
  · exact Iff.rfl
  · refine mem_upsertFirst_iff (by simp [Route4.sameKey, hostRoute, hr]) ?_
    rintro rfl
    exact hr rfl

/-- `install` puts the route in the FIB unless its request fails. -/
theorem install_mem (h : env.fault (.routeReplace mac) = none) :
    hostRoute ip4 idx nh ∈ (install env mac idx ip4 nh w).tables.fib := by
  rw [install_fib, h]
  exact mem_upsertFirst_self _ _ _

/-- `persist` writes nothing but the state file. -/
@[simp] theorem persist_hosts : (persist env w).hosts = w.hosts := by
  rw [persist]
  split <;> rfl

@[simp] theorem persist_tables : (persist env w).tables = w.tables := by
  rw [persist]
  split <;> rfl

@[simp] theorem persist_trace : (persist env w).trace = w.trace := by
  rw [persist]
  split <;> rfl

/-- The solicitation step changes nothing of a host but when it is probed. -/
theorem solicit_fst (env : Env) (mac : Text) (nh gua : Option IPv6) (h : Host) :
    (solicit env mac nh gua h).1 =
      { h with probeAt := (solicit env mac nh gua h).1.probeAt } := by
  unfold solicit
  cases gua with
  | none => rfl
  | some g =>
      simp only
      split
      · rfl
      · split
        · rfl
        · split <;> rfl

/-- Following a next hop touches one entry of the table. -/
theorem follow_get_of_ne {nh : Option IPv6} (hne : mac' ≠ mac) :
    (follow env mac idx nh h w).hosts.get mac' = w.hosts.get mac' := by
  cases nh with
  | none => rfl
  | some n =>
      simp only [follow]
      split
      · rfl
      · simp [OrderedDict.get_set_of_ne _ _ hne]

/-- Following a next hop touches no route to another address. -/
theorem follow_elsewhere {nh : Option IPv6} :
    SameElsewhere h.ip4 w.tables (follow env mac idx nh h w).tables := by
  cases nh with
  | none => exact SameElsewhere.refl _ _
  | some n =>
      simp only [follow]
      split
      · exact SameElsewhere.refl _ _
      · exact install_elsewhere

end Programming

/-! ### What evaluation does -/

section Evaluation

variable [UnicodeTables] {env : Env} {mac mac' : Text} {w : World} {h : Host}

/-- **Everything `evaluate` can do**: raise, ignore an unknown host or a missing
interface, or solicit and follow the best next hop. -/
theorem evaluate_cases (env : Env) (mac : Text) (w : World) :
    (∃ e, evaluate env mac w = (.error e, w)) ∨
    (evaluate env mac w = (.ok (), w) ∧
      ∀ h, w.hosts.get mac = some h → linkLookup env.links h.iface = none) ∨
    ∃ h idx nh gua,
      w.hosts.get mac = some h ∧ linkLookup env.links h.iface = some idx ∧
      bestNexthop env idx mac = .ok (nh, gua) ∧
      evaluate env mac w = (.ok (), follow env mac idx nh (solicit env mac nh gua h).1
        { w with
          hosts := w.hosts.set mac (solicit env mac nh gua h).1
          trace := (solicit env mac nh gua h).2 ++ w.trace }) := by
  rw [evaluate]
  cases hh : w.hosts.get mac with
  | none =>
      refine Or.inr (Or.inl ⟨rfl, ?_⟩)
      intro h hget
      cases hget
  | some h =>
      simp only [index]
      cases env.fault (.linkLookup mac) with
      | some e => exact Or.inl ⟨e, rfl⟩
      | none =>
          cases hidx : linkLookup env.links h.iface with
          | none =>
              refine Or.inr (Or.inl ⟨rfl, ?_⟩)
              intro h' hget
              obtain rfl : h = h' := Option.some.inj hget
              exact hidx
          | some idx =>
              simp only
              cases hbest : bestNexthop env idx mac with
              | error e => exact Or.inl ⟨e, rfl⟩
              | ok r => exact Or.inr (Or.inr ⟨h, idx, r.1, r.2, rfl, hidx, hbest, rfl⟩)

/-- `evaluate` touches one entry of the table. -/
theorem evaluate_get_of_ne (hne : mac' ≠ mac) :
    (evaluate env mac w).2.hosts.get mac' = w.hosts.get mac' := by
  obtain ⟨e, he⟩ | ⟨he, -⟩ | ⟨h, idx, nh, gua, -, -, -, he⟩ := evaluate_cases env mac w
  · rw [he]
  · rw [he]
  · rw [he, follow_get_of_ne hne]
    exact OrderedDict.get_set_of_ne _ _ hne

/-- `evaluate` touches no route to another address than the host's. -/
theorem evaluate_elsewhere (hh : w.hosts.get mac = some h) :
    SameElsewhere h.ip4 w.tables (evaluate env mac w).2.tables := by
  obtain ⟨e, he⟩ | ⟨he, -⟩ | ⟨h', idx, nh, gua, hh', -, -, he⟩ := evaluate_cases env mac w
  · rw [he]
    exact SameElsewhere.refl _ _
  · rw [he]
    exact SameElsewhere.refl _ _
  · obtain rfl : h = h' := Option.some.inj (hh.symm.trans hh')
    rw [he]
    have hip : (solicit env mac nh gua h).1.ip4 = h.ip4 := by rw [solicit_fst]
    exact hip ▸ follow_elsewhere

/-- `evaluate` of an untracked MAC does nothing. -/
theorem evaluate_of_get_eq_none (hh : w.hosts.get mac = none) :
    evaluate env mac w = (.ok (), w) := by
  rw [evaluate, hh]

/-- `evaluate` keeps the interface and the address of a host. -/
theorem evaluate_get_self (env : Env) (hh : w.hosts.get mac = some h) :
    ∃ h', (evaluate env mac w).2.hosts.get mac = some h' ∧
      h'.iface = h.iface ∧ h'.ip4 = h.ip4 := by
  obtain ⟨e, he⟩ | ⟨he, -⟩ | ⟨h₀, idx, nh, gua, hh₀, -, -, he⟩ := evaluate_cases env mac w
  · exact ⟨h, by rw [he, hh], rfl, rfl⟩
  · exact ⟨h, by rw [he, hh], rfl, rfl⟩
  · obtain rfl : h = h₀ := Option.some.inj (hh.symm.trans hh₀)
    have hs : (solicit env mac nh gua h).1.iface = h.iface ∧
        (solicit env mac nh gua h).1.ip4 = h.ip4 := by
      rw [solicit_fst]
      exact ⟨rfl, rfl⟩
    rw [he]
    cases nh with
    | none => exact ⟨_, OrderedDict.get_set_self _ _ _, hs.1, hs.2⟩
    | some n =>
        simp only [follow]
        split
        · exact ⟨_, OrderedDict.get_set_self _ _ _, hs.1, hs.2⟩
        · exact ⟨_, OrderedDict.get_set_self _ _ _, hs.1, hs.2⟩

/-- The lease of a tracked MAC: its interface and its address. -/
def World.lease (w : World) (mac : Text) : Option (Text × Text) :=
  (w.hosts.get mac).map fun h => (h.iface, h.ip4)

/-- **Evaluation keeps every lease.** -/
theorem evaluate_lease (env : Env) (mac : Text) (w : World) :
    (evaluate env mac w).2.lease = w.lease := by
  funext m
  rw [World.lease, World.lease]
  by_cases hm : m = mac
  · subst hm
    cases hh : w.hosts.get m with
    | none => rw [evaluate_of_get_eq_none hh, hh]
    | some h =>
        obtain ⟨h', hget, hiface, hip⟩ := evaluate_get_self env hh
        rw [hget, Option.map_some, Option.map_some, hiface, hip]
  · rw [evaluate_get_of_ne hm]

end Evaluation

/-! ### What a lease line does -/

section Leases

variable {env : Env} {iface mac mac' ip4 : Text} {w : World} {h : Host}

/-- **Everything `record` can do**: arm the GUA check of the entry that is there, or make
a new entry, after withdrawing the route of an entry for another interface or address. -/
theorem record_cases (env : Env) (iface mac ip4 : Text) (w : World) :
    (∃ h, w.hosts.get mac = some h ∧ h.iface = iface ∧ h.ip4 = ip4 ∧
      record env iface mac ip4 w =
        { w with
          hosts := w.hosts.set mac
            { h with probeAt := some (env.monotonic .arming + GUA_PROBE_DELAY) }
          trace := .armed mac (env.monotonic .arming + GUA_PROBE_DELAY) :: w.trace }) ∨
    ∃ w₁, (w.hosts.get mac = none ∧ w₁ = w ∨
        ∃ h, w.hosts.get mac = some h ∧ w₁ = withdraw env h.ip4 w) ∧
      record env iface mac ip4 w =
        { w₁ with
          hosts := w.hosts.set mac
            { iface := iface, ip4 := ip4, nh := none,
              probeAt := some (env.monotonic .arming + GUA_PROBE_DELAY) }
          trace := .armed mac (env.monotonic .arming + GUA_PROBE_DELAY) ::
            .tracked mac iface ip4 :: w₁.trace } := by
  simp only [record, leaseEntry]
  cases hh : w.hosts.get mac with
  | none => exact Or.inr ⟨w, Or.inl ⟨rfl, rfl⟩, rfl⟩
  | some h =>
      by_cases hne : h.iface ≠ iface ∨ h.ip4 ≠ ip4
      · refine Or.inr ⟨withdraw env h.ip4 w, Or.inr ⟨h, rfl, rfl⟩, ?_⟩
        simp only [if_pos hne, withdraw_hosts]
      · refine Or.inl ⟨h, rfl, ?_, ?_, ?_⟩
        · exact not_not.mp fun hi => hne (Or.inl hi)
        · exact not_not.mp fun hi => hne (Or.inr hi)
        · simp only [if_neg hne]

/-- A lease line touches one entry of the table. -/
theorem record_get_of_ne (hne : mac' ≠ mac) :
    (record env iface mac ip4 w).hosts.get mac' = w.hosts.get mac' := by
  obtain ⟨h, -, -, -, he⟩ | ⟨w₁, -, he⟩ := record_cases env iface mac ip4 w
  · rw [he]
    exact OrderedDict.get_set_of_ne _ _ hne
  · rw [he]
    exact OrderedDict.get_set_of_ne _ _ hne

/-- The entry after a lease line is the one the line names. -/
theorem record_get_self (env : Env) (iface mac ip4 : Text) (w : World) :
    ∃ h, (record env iface mac ip4 w).hosts.get mac = some h ∧
      h.iface = iface ∧ h.ip4 = ip4 := by
  obtain ⟨h, -, hi, hip, he⟩ | ⟨w₁, -, he⟩ := record_cases env iface mac ip4 w
  · rw [he]
    exact ⟨_, OrderedDict.get_set_self _ _ _, hi, hip⟩
  · rw [he]
    exact ⟨_, OrderedDict.get_set_self _ _ _, rfl, rfl⟩

/-- A lease line for an untracked MAC leaves the kernel alone. -/
theorem record_tables (hh : w.hosts.get mac = none) :
    (record env iface mac ip4 w).tables = w.tables := by
  obtain ⟨h, hh', -⟩ | ⟨w₁, ⟨-, rfl⟩ | ⟨h, hh', -⟩, he⟩ :=
    record_cases env iface mac ip4 w
  · rw [hh] at hh'
    cases hh'
  · rw [he]
  · rw [hh] at hh'
    cases hh'

/-- A lease line for a tracked MAC touches no route to another address than the one its
entry had. -/
theorem record_elsewhere (hh : w.hosts.get mac = some h) :
    SameElsewhere h.ip4 w.tables (record env iface mac ip4 w).tables := by
  obtain ⟨h', -, -, -, he⟩ | ⟨w₁, ⟨hh', -⟩ | ⟨h', hh', rfl⟩, he⟩ :=
    record_cases env iface mac ip4 w
  · rw [he]
    exact SameElsewhere.refl _ _
  · rw [hh] at hh'
    cases hh'
  · obtain rfl : h = h' := Option.some.inj (hh.symm.trans hh')
    rw [he]
    exact withdraw_elsewhere

/-- Releasing an untracked MAC does nothing. -/
theorem onRelease_of_get_eq_none (hh : w.hosts.get mac = none) :
    onRelease env mac ip4 w = w := by
  rw [onRelease, hh]

/-- Releasing a tracked MAC removes its entry and no other. -/
theorem onRelease_hosts (hh : w.hosts.get mac = some h) :
    (onRelease env mac ip4 w).hosts = w.hosts.pop mac := by
  rw [onRelease, hh]
  simp

/-- A release touches one entry of the table. -/
theorem onRelease_get_of_ne (hne : mac' ≠ mac) :
    (onRelease env mac ip4 w).hosts.get mac' = w.hosts.get mac' := by
  cases hh : w.hosts.get mac with
  | none => rw [onRelease_of_get_eq_none hh]
  | some h => rw [onRelease_hosts hh, OrderedDict.get_pop_of_ne _ hne]

/-- After a release the MAC is not tracked. -/
theorem onRelease_get_self : (onRelease env mac ip4 w).hosts.get mac = none := by
  cases hh : w.hosts.get mac with
  | none => rw [onRelease_of_get_eq_none hh, hh]
  | some h => rw [onRelease_hosts hh, OrderedDict.get_pop_self]

/-- Releasing a tracked MAC requests the deletion of its route, which is then gone unless
the request fails. -/
theorem onRelease_withdraws (ip4 : Text) (hh : w.hosts.get mac = some h) :
    (∃ result, (onRelease env mac ip4 w).trace = .withdrew h.ip4 result :: w.trace) ∧
      (env.fault .routeDel = none →
        (onRelease env mac ip4 w).tables.fib =
          w.tables.fib.eraseP (hostRoutes h.ip4).accepts) := by
  rw [onRelease, hh]
  simp only [persist_trace, persist_tables]
  exact ⟨withdraw_trace (w := { w with hosts := w.hosts.pop mac }), withdraw_fib⟩

/-- Releasing a tracked MAC touches no route to another address than its own. -/
theorem onRelease_elsewhere (hh : w.hosts.get mac = some h) :
    SameElsewhere h.ip4 w.tables (onRelease env mac ip4 w).tables := by
  rw [onRelease, hh]
  simp only [persist_tables]
  exact withdraw_elsewhere (w := { w with hosts := w.hosts.pop mac })

end Leases

/-! ### What a line says -/

/-- A line that `handle_line` acts on: `add` and `old` announce a lease, `del` releases
one. -/
inductive LeaseLine
  | lease (iface mac ip4 : Text)
  | release (mac ip4 : Text)
deriving DecidableEq

section Events

variable [UnicodeTables] {env : Env} {mac : Text} {macs : List Text} {w : World}

/-- The fields of a line, with the MAC in lower case; `none` if the line is ignored. -/
def readLine (line : Text) : Option LeaseLine :=
  match split line with
  | action :: iface :: mac :: ip4 :: _ =>
      if action = "add".toList ∨ action = "old".toList then
        some (.lease iface (UnicodeTables.lower mac) ip4)
      else if action = "del".toList then some (.release (UnicodeTables.lower mac) ip4)
      else none
  | _ => none

/-- `handle_line` acts on what `readLine` reads. -/
theorem handleLine_eq (env : Env) (line : Text) (w : World) :
    handleLine env line w =
      match readLine line with
      | some (.lease iface mac ip4) => onLease env iface mac ip4 w
      | some (.release mac ip4) => (.ok (), onRelease env mac ip4 w)
      | none => (.ok (), w) := by
  rw [handleLine, readLine]
  match split line with
  | [] | [_] | [_, _] | [_, _, _] => rfl
  | action :: iface :: mac :: ip4 :: _ =>
      simp only
      split_ifs <;> rfl

/-- After an evaluation that did not raise the sweep goes on. -/
theorem evaluateEach_of_ok (hok : (evaluate env mac w).1 = .ok ()) (macs : List Text) :
    evaluateEach env (mac :: macs) w = evaluateEach env macs (evaluate env mac w).2 := by
  rw [evaluateEach]
  generalize evaluate env mac w = o at hok ⊢
  obtain ⟨result, w'⟩ := o
  cases hok
  rfl

/-- An evaluation that raised ends the sweep. -/
theorem evaluateEach_of_not_ok (hok : (evaluate env mac w).1 ≠ .ok ()) (macs : List Text) :
    evaluateEach env (mac :: macs) w = evaluate env mac w := by
  rw [evaluateEach]
  generalize evaluate env mac w = o at hok ⊢
  obtain ⟨result, w'⟩ := o
  cases result with
  | ok => exact absurd rfl hok
  | error e => rfl

/-- If a sweep did not raise, its first evaluation did not. -/
theorem evaluate_ok_of_evaluateEach (hok : (evaluateEach env (mac :: macs) w).1 = .ok ()) :
    (evaluate env mac w).1 = .ok () := by
  by_contra hno
  rw [evaluateEach_of_not_ok hno] at hok
  exact hno hok

/-- What the evaluations of the MACs on its list preserve, a sweep preserves. -/
theorem evaluateEach_invariant {I : World → Prop}
    (heval : ∀ mac ∈ macs, ∀ w, I w → I (evaluate env mac w).2) (hw : I w) :
    I (evaluateEach env macs w).2 := by
  induction macs generalizing w with
  | nil => exact hw
  | cons mac macs ih =>
      have hstep := heval mac List.mem_cons_self w hw
      by_cases hok : (evaluate env mac w).1 = .ok ()
      · rw [evaluateEach_of_ok hok]
        exact ih (fun m hm => heval m (List.mem_cons_of_mem mac hm)) hstep
      · rw [evaluateEach_of_not_ok hok]
        exact hstep

/-- A sweep that did not raise and names a MAC once evaluates it once, between two sweeps
that do not name it. -/
theorem evaluateEach_once (hok : (evaluateEach env macs w).1 = .ok ()) (hnodup : macs.Nodup)
    (hmac : mac ∈ macs) :
    ∃ before after, mac ∉ before ∧ mac ∉ after ∧ (evaluateEach env macs w).2 =
      (evaluateEach env after (evaluate env mac (evaluateEach env before w).2).2).2 := by
  induction macs generalizing w with
  | nil => cases hmac
  | cons m macs ih =>
      obtain ⟨hm, hrest⟩ := List.nodup_cons.mp hnodup
      have hfirst := evaluate_ok_of_evaluateEach hok
      rw [evaluateEach_of_ok hfirst] at hok ⊢
      by_cases heq : mac = m
      · subst heq
        exact ⟨[], macs, List.not_mem_nil, hm, rfl⟩
      · obtain ⟨before, after, hbefore, hafter, hsweep⟩ :=
          ih hok hrest ((List.mem_cons.mp hmac).resolve_left heq)
        refine ⟨m :: before, after, List.not_mem_cons_of_ne_of_not_mem heq hbefore, hafter, ?_⟩
        rw [hsweep, evaluateEach_of_ok hfirst]

/-- **The rule for one turn**: an invariant of `evaluate` that the table update of every
lease line and every release establish is an invariant of `step`. -/
theorem step_invariant {I : World → Prop} {ev : Event}
    (heval : ∀ mac w, I w → I (evaluate env mac w).2)
    (hlease : ∀ line iface mac ip4, ev = .line line →
      readLine line = some (.lease iface mac ip4) →
      I (persist env (record env iface mac ip4 w)))
    (hrelease : ∀ line mac ip4, ev = .line line →
      readLine line = some (.release mac ip4) → I (onRelease env mac ip4 w))
    (hw : I w) : I (step env ev w).2 := by
  cases ev with
  | sweep => exact evaluateEach_invariant (fun mac _ => heval mac) hw
  | line line =>
      rw [step, handleLine_eq]
      split
      · rename_i iface mac ip4 hread
        exact heval mac _ (hlease line iface mac ip4 rfl hread)
      · rename_i mac ip4 hread
        exact hrelease line mac ip4 rfl hread
      · exact hw

/-! ### Exceptions -/

/-- Neither of the two calls that `evaluate` does not guard fails. -/
def Guarded (env : Env) : Prop :=
  ∀ mac, env.fault (.linkLookup mac) = none ∧ env.fault (.getRoutes mac) = none

/-- **Only the two unguarded calls raise**, whatever other calls fail. -/
theorem evaluate_ok (hg : Guarded env) (mac : Text) (w : World) :
    (evaluate env mac w).1 = .ok () := by
  rw [evaluate]
  split
  · rfl
  · simp only [index, (hg mac).1]
    split
    · rename_i e he
      cases he
    · rfl
    · split
      · rename_i e he
        rw [bestNexthop, (hg mac).2] at he
        simp only at he
        split at he <;> cases he
      · rfl

/-- What `evaluate` does for a host on a present interface. -/
theorem evaluate_of_best (hg : Guarded env) {mac : Text} {h : Host} {idx : ℕ}
    {nh gua : Option IPv6} (hh : w.hosts.get mac = some h)
    (hidx : linkLookup env.links h.iface = some idx)
    (hbest : bestNexthop env idx mac = .ok (nh, gua)) :
    evaluate env mac w = (.ok (), follow env mac idx nh (solicit env mac nh gua h).1
      { w with
        hosts := w.hosts.set mac (solicit env mac nh gua h).1
        trace := (solicit env mac nh gua h).2 ++ w.trace }) := by
  simp only [evaluate, hh, index, (hg mac).1, hidx, hbest]

/-- Every sweep ends normally if neither of the unguarded calls fails. -/
theorem evaluateEach_ok (hg : Guarded env) (macs : List Text) (w : World) :
    (evaluateEach env macs w).1 = .ok () := by
  induction macs generalizing w with
  | nil => rfl
  | cons mac macs ih =>
      rw [evaluateEach_of_ok (evaluate_ok hg mac w)]
      exact ih _

/-- Every turn ends normally if neither of the unguarded calls fails. -/
theorem step_ok (hg : Guarded env) (ev : Event) (w : World) : (step env ev w).1 = .ok () := by
  cases ev with
  | sweep => exact evaluateEach_ok hg _ _
  | line line =>
      rw [step, handleLine_eq]
      split
      · exact evaluate_ok hg _ _
      · rfl
      · rfl

end Events

end V4WithV6Nh.Manager
