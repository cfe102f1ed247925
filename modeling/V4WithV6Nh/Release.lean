import V4WithV6Nh.ReturnRoutes

/-!
# Which Lease a Release Ends

A lease is a pair of a MAC and an address, and a `del` line names both. The table is
keyed by the MAC alone, and `on_release` does not look at the address, so a late `del`
of an earlier lease ends the lease that is there now.

`Leases` is what the table is for: at each MAC the lease that the lines so far leave it
with, where a `del` ends the lease it names and no other.

## Main results

* `unaffected_iff_named`: a `del` line leaves the daemon as it is for every lease it does
  not name exactly when it names the lease that is there.
* `always_exact_iff`: the runs in which the table is at every step the table of `Leases`
  are the runs in which every `del` line names the lease that is there.
-/

namespace V4WithV6Nh.Manager

/-! ### The table that the lines describe -/

/-- At each MAC the interface and the address of its lease. -/
abbrev Leases := Text → Option (Text × Text)

section Lines

variable [UnicodeTables]

/-- What an event means for the leases: `add` and `old` make the lease of a MAC the one
they announce, `del` ends the lease it names, and a sweep ends none. -/
def Leases.after (l : Leases) : Event → Leases
  | .sweep => l
  | .line line =>
      match readLine line with
      | some (.lease iface mac ip4) => Function.update l mac (some (iface, ip4))
      | some (.release mac ip4) =>
          if (l mac).map Prod.snd = some ip4 then Function.update l mac none else l
      | none => l

/-- A `del` line names the address that its MAC has in the table, if it has one. -/
def Named (w : World) (ev : Event) : Prop :=
  ∀ line mac ip4, ev = .line line → readLine line = some (.release mac ip4) →
    ∀ h, w.hosts.get mac = some h → h.ip4 = ip4

/-- A `del` line for another address than its MAC has leaves the table, the state file
and the routes as they are. -/
def Unaffected (w : World) (ev : Event) (w' : World) : Prop :=
  ∀ line mac ip4, ev = .line line → readLine line = some (.release mac ip4) →
    ∀ h, w.hosts.get mac = some h → h.ip4 ≠ ip4 →
      w'.hosts = w.hosts ∧ w'.state = w.state ∧ w'.tables.fib = w.tables.fib

end Lines

/-! ### The leases after each method -/

section Methods

variable {env : Env} {iface mac ip4 : Text} {w : World}

/-- A lease line gives its MAC the lease it announces. -/
theorem record_lease : (record env iface mac ip4 w).lease =
    Function.update w.lease mac (some (iface, ip4)) := by
  funext m
  by_cases hm : m = mac
  · subst hm
    obtain ⟨h, hh, hiface, hip⟩ := record_get_self env iface m ip4 w
    rw [Function.update_self, World.lease, hh, Option.map_some, hiface, hip]
  · rw [Function.update_of_ne hm, World.lease, record_get_of_ne hm, World.lease]

/-- A release ends the lease of its MAC, whatever the address it names. -/
theorem onRelease_lease (ip4 : Text) :
    (onRelease env mac ip4 w).lease = Function.update w.lease mac none := by
  funext m
  by_cases hm : m = mac
  · subst hm
    rw [Function.update_self, World.lease, onRelease_get_self, Option.map_none]
  · rw [Function.update_of_ne hm, World.lease, onRelease_get_of_ne hm, World.lease]

/-- Ending the lease of a MAC is ending the lease with an address exactly when the MAC has
no other address. -/
theorem update_lease_eq_iff : Function.update w.lease mac none =
      (if (w.lease mac).map Prod.snd = some ip4 then Function.update w.lease mac none
        else w.lease) ↔
    ∀ h, w.hosts.get mac = some h → h.ip4 = ip4 := by
  cases hh : w.hosts.get mac with
  | none =>
      have hfree : w.lease mac = none := by rw [World.lease, hh]; rfl
      refine ⟨fun _ h hh' => ?_, fun _ => ?_⟩
      · cases hh'
      · simp only [hfree, Option.map_none, reduceCtorEq, if_false]
        rw [← hfree, Function.update_eq_self]
  | some h =>
      have hlease : w.lease mac = some (h.iface, h.ip4) := by
        rw [World.lease, hh, Option.map_some]
      simp only [hlease, Option.map_some, Option.some.injEq, forall_eq']
      by_cases hip : h.ip4 = ip4
      · exact ⟨fun _ => hip, fun _ => (if_pos hip).symm⟩
      · rw [if_neg hip]
        refine ⟨fun heq => ?_, fun heq => absurd heq hip⟩
        have hmac := congrFun heq mac
        rw [Function.update_self, hlease] at hmac
        cases hmac

end Methods

section Runs

variable [UnicodeTables] {env : Env} {w w' : World}

/-- A sweep keeps every lease. -/
theorem evaluateEach_lease (env : Env) (macs : List Text) (w : World) :
    (evaluateEach env macs w).2.lease = w.lease :=
  evaluateEach_invariant (I := fun w' => w'.lease = w.lease)
    (fun mac _ w' h => (evaluate_lease env mac w').trans h) rfl

/-- The leases after one turn. -/
theorem step_lease (env : Env) (ev : Event) (w : World) :
    (step env ev w).2.lease =
      match ev with
      | .sweep => w.lease
      | .line line =>
          match readLine line with
          | some (.lease iface mac ip4) => Function.update w.lease mac (some (iface, ip4))
          | some (.release mac _) => Function.update w.lease mac none
          | none => w.lease := by
  cases ev with
  | sweep => exact evaluateEach_lease env _ w
  | line line =>
      simp only [step, handleLine_eq]
      cases readLine line with
      | none => rfl
      | some l =>
          cases l with
          | lease iface mac ip4 =>
              have hpersist : (persist env (record env iface mac ip4 w)).lease =
                  (record env iface mac ip4 w).lease := by
                funext m
                rw [World.lease, persist_hosts, World.lease]
              exact (evaluate_lease env mac _).trans (hpersist.trans record_lease)
          | release mac ip4 => exact onRelease_lease ip4

/-- A line that is no release names nothing. -/
theorem named_of_not_release {line : Text}
    (h : ∀ mac ip4, readLine line ≠ some (.release mac ip4)) : Named w (.line line) := by
  intro line' mac ip4 heq hline
  obtain rfl := Event.line.inj heq
  exact absurd hline (h mac ip4)

/-- What a release names. -/
theorem named_release_iff {line mac ip4 : Text}
    (hread : readLine line = some (.release mac ip4)) :
    Named w (.line line) ↔ ∀ h, w.hosts.get mac = some h → h.ip4 = ip4 := by
  constructor
  · exact fun hn => hn line mac ip4 rfl hread
  · intro hn line' mac' ip4' heq hline
    obtain rfl := Event.line.inj heq
    obtain ⟨rfl, rfl⟩ := LeaseLine.release.inj (Option.some.inj (hread.symm.trans hline))
    exact hn

/-- **The exact condition of one turn**: it keeps the table in step with the lines exactly
when a `del` line names the lease that is there. -/
theorem step_lease_eq_iff (env : Env) (ev : Event) (w : World) :
    (step env ev w).2.lease = Leases.after w.lease ev ↔ Named w ev := by
  rw [step_lease]
  cases ev with
  | sweep =>
      refine ⟨fun _ line mac ip4 heq => ?_, fun _ => rfl⟩
      cases heq
  | line line =>
      simp only [Leases.after]
      cases hread : readLine line with
      | none => exact iff_of_true rfl (named_of_not_release fun _ _ => by simp [hread])
      | some l =>
          cases l with
          | lease iface mac ip4 =>
              exact iff_of_true rfl (named_of_not_release fun _ _ => by simp [hread])
          | release mac ip4 => exact update_lease_eq_iff.trans (named_release_iff hread).symm

/-- **A release is precise exactly when it names the lease that is there**: it always ends
the lease of its MAC. -/
theorem unaffected_iff_named (env : Env) (ev : Event) (w : World) :
    Unaffected w ev (step env ev w).2 ↔ Named w ev := by
  constructor
  · intro hun line mac ip4 hev hread h hh
    by_contra hip
    have hhosts := (hun line mac ip4 hev hread h hh hip).1
    have hlease := congrFun (step_lease env ev w) mac
    rw [World.lease, hhosts, hh, hev] at hlease
    simp only [hread, Function.update_self, Option.map_some] at hlease
    cases hlease
  · intro hn line mac ip4 hev hread h hh hip
    exact absurd (hn line mac ip4 hev hread h hh) hip

/-- A turn of the daemon beside the leases that the lines describe. -/
def LeaseTurn (s : World × Leases) (e : Env × Event) (s' : World × Leases) : Prop :=
  (step e.1 e.2 s.1).2 = s'.1 ∧ s'.2 = Leases.after s.2 e.2

/-- **The table along every run**: the runs in which every `del` leaves the leases it does
not name alone, and in which the table holds at every step the leases that the lines
describe, are the runs in which every `del` line names the lease that is there. -/
theorem always_exact_iff {es : List (Env × Event)} {s' : World × Leases} :
    Run (fun s e s' => LeaseTurn s e s' ∧ Unaffected s.1 e.2 s'.1 ∧ s'.1.lease = s'.2)
        (w, w.lease) es s' ↔
      Run (fun s e s' => LeaseTurn s e s' ∧ Named s.1 e.2) (w, w.lease) es s' := by
  refine Run.always_iff (I := fun s => s.1.lease = s.2) (fun _ _ _ _ _ h => h.2) ?_ rfl
  rintro ⟨w, l⟩ ⟨env, ev⟩ ⟨w', l'⟩ hI ⟨hstep, hl⟩
  obtain rfl : w.lease = l := hI
  obtain rfl : (step env ev w).2 = w' := hstep
  obtain rfl : l' = Leases.after w.lease ev := hl
  have hexact := step_lease_eq_iff env ev w
  have hprecise := unaffected_iff_named env ev w
  constructor
  · exact fun h => hprecise.mp h.1
  · exact fun hn => ⟨hprecise.mpr hn, hexact.mpr hn⟩

end Runs

/-! ### A late release -/

/-- **A late release ends the present lease**: a host is leased 10.0.0.1 and then 10.0.0.2,
and the `del` of 10.0.0.1 removes the entry, the line in the state file and the route of
10.0.0.2. -/
theorem late_release_ends_lease :
    let add₂ := Event.line "add eth0 aa:00:00:00:00:01 10.0.0.2".toList
    let del₁ := Event.line "del eth0 aa:00:00:00:00:01 10.0.0.1".toList
    let w := (step twoHosts add₂ (step twoHosts addA World.start).2).2
    let w' := (step twoHosts del₁ w).2
    ¬ Unaffected w del₁ w' ∧
      w.lease "aa:00:00:00:00:01".toList = some ("eth0".toList, "10.0.0.2".toList) ∧
      w'.lease "aa:00:00:00:00:01".toList = none ∧
      w.state = some "aa:00:00:00:00:01 eth0 10.0.0.2\n".toList ∧ w'.state = some [] ∧
      w.tables.fib = [hostRoute "10.0.0.2".toList 3 nhA] ∧ w'.tables.fib = [] := by
  intro add₂ del₁ w w'
  have hlease : w.lease "aa:00:00:00:00:01".toList =
      some ("eth0".toList, "10.0.0.2".toList) := by decide
  refine ⟨fun hun => ?_, hlease, by decide, by decide, by decide, by decide, by decide⟩
  obtain ⟨h, hh, heq⟩ := Option.map_eq_some_iff.mp hlease
  have hip : h.ip4 ≠ "10.0.0.1".toList := by
    rw [(Prod.mk.inj heq).2]
    decide
  have hread : readLine "del eth0 aa:00:00:00:00:01 10.0.0.1".toList =
      some (.release "aa:00:00:00:00:01".toList "10.0.0.1".toList) := by decide
  have hhosts := (hun _ _ _ rfl hread h hh hip).1
  have hgone : w'.hosts.entries ≠ w.hosts.entries := by decide
  exact hgone (congrArg OrderedDict.entries hhosts)

end V4WithV6Nh.Manager
