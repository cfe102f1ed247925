import V4WithV6Nh.StateFile

/-!
# A Restart of the Return-Route Daemon

A daemon that ends leaves its routes in the kernel. The next one restores its table from
the state file, without the leases that dnsmasq has dropped in the meantime, and sweeps it.
The sweep touches the routes to the addresses in the table, and nobody touches the route of
a lease that was dropped.

## Main results

* `mem_reconcileAll_iff`: a sweep leaves every route to an address that no tracked host has.
* `pruned_iff`: a restart leaves no route of a dropped lease exactly when there was none.
-/

namespace V4WithV6Nh.Manager

section Restart

variable [UnicodeTables] {env : Env} {s : Startup} {w : World}

/-! ### The frame of a sweep -/

/-- No tracked host has the address. -/
def Unheld (w : World) (ip4 : Text) : Prop :=
  ∀ mac h, w.hosts.get mac = some h → h.ip4 ≠ ip4

/-- `evaluate` leaves every route to an address that no tracked host has. -/
theorem mem_evaluate_iff {r : Route4} (hfree : Unheld w r.dst) (mac : Text) :
    r ∈ (evaluate env mac w).2.tables.fib ↔ r ∈ w.tables.fib := by
  cases hh : w.hosts.get mac with
  | none => rw [evaluate_of_get_eq_none hh]
  | some h => exact evaluate_elsewhere hh r (hfree mac h hh).symm

/-- `evaluate` gives no host another address. -/
theorem unheld_evaluate {ip4 : Text} (hfree : Unheld w ip4) (mac : Text) :
    Unheld (evaluate env mac w).2 ip4 := by
  intro m h hh heq
  have haddress := address_of_get hh
  rw [evaluate_address, World.address, Option.map_eq_some_iff] at haddress
  obtain ⟨h₀, hh₀, hip⟩ := haddress
  exact hfree m h₀ hh₀ (hip.trans heq)

/-- **The frame of a sweep**: it leaves every route to an address that no tracked host
has. -/
theorem mem_reconcileAll_iff {r : Route4} (hfree : Unheld w r.dst) :
    r ∈ (reconcileAll env w).2.tables.fib ↔ r ∈ w.tables.fib := by
  have hinv : Unheld (reconcileAll env w).2 r.dst ∧
      (r ∈ (reconcileAll env w).2.tables.fib ↔ r ∈ w.tables.fib) :=
    evaluateEach_invariant
      (I := fun w' => Unheld w' r.dst ∧ (r ∈ w'.tables.fib ↔ r ∈ w.tables.fib))
      (fun mac _ w' ⟨hfree', hiff⟩ =>
        ⟨unheld_evaluate hfree' mac, (mem_evaluate_iff hfree' mac).trans hiff⟩)
      ⟨hfree, Iff.rfl⟩
  exact hinv.2

/-! ### Dropped leases -/

/-- The leases in the state file. -/
def World.fileLeases (w : World) : List (Text × Text × Text) :=
  (splitlines (w.state.getD [])).filterMap fun line =>
    match split line with
    | [mac, iface, ip4] => some (UnicodeTables.lower mac, iface, ip4)
    | _ => none

/-- `main` up to `serve`: a new process restores its table and sweeps it. -/
def boot (env : Env) (s : Startup) (w : World) : Outcome :=
  reconcileAll env (restore s w.reopen)

/-- The state file has the lease, the lease file does not, and no restored host has its
address. -/
def Dropped (s : Startup) (w : World) (l : Text × Text × Text) : Prop :=
  l ∈ w.fileLeases ∧ s.keeps l = false ∧ Unheld (restore s w.reopen) l.2.2

/-- A proto-149 route to the address. -/
def HasRoute (ip4 : Text) (t : Tables) : Prop :=
  ∃ r ∈ t.fib, r.proto = RT_PROTO ∧ r.dst = ip4 ∧ r.dstLen = 32

/-- After a start no route of a dropped lease is left. -/
def Pruned (env : Env) (s : Startup) (w : World) : Prop :=
  ∀ l, Dropped s w l → ¬ HasRoute l.2.2 (boot env s w).2.tables

/-- Before the start there is no route of a lease that it drops. -/
def NoneDropped (s : Startup) (w : World) : Prop :=
  ∀ l, Dropped s w l → ¬ HasRoute l.2.2 w.tables

/-- **What a restart prunes**: for every state file, every lease file and every kernel, and
whatever the netlink calls answer, a start leaves no route of a dropped lease exactly when
there was none before. -/
theorem pruned_iff (env : Env) (s : Startup) (w : World) :
    Pruned env s w ↔ NoneDropped s w := by
  refine forall_congr' fun l => forall_congr' fun hdropped => not_congr ?_
  have hsame : ∀ r : Route4, r.dst = l.2.2 →
      (r ∈ (boot env s w).2.tables.fib ↔ r ∈ w.tables.fib) := by
    intro r hr
    rw [boot, mem_reconcileAll_iff (hr ▸ hdropped.2.2), restore_tables]
    rfl
  constructor
  · rintro ⟨r, hr, hproto, hdst, hlen⟩
    exact ⟨r, (hsame r hdst).mp hr, hproto, hdst, hlen⟩
  · rintro ⟨r, hr, hproto, hdst, hlen⟩
    exact ⟨r, (hsame r hdst).mpr hr, hproto, hdst, hlen⟩

end Restart

/-! ### A lease that expired -/

/-- **A lease that expires while the daemon is down keeps its route**: after `addA` the
daemon ends, dnsmasq drops the lease, and the next start leaves the route although every
call succeeds. -/
theorem expired_lease_keeps_route :
    ∃ (es : List Happening) (w : World) (s : Startup) (env : Env),
      Run Writes World.start es w ∧ NoFaults env ∧ ¬ Pruned env s w := by
  refine ⟨[.turn twoHosts addA], (step twoHosts addA World.start).2, ⟨some [], fun _ => 0⟩,
    twoHosts, Run.single ⟨rfl, rfl⟩, fun _ => rfl, fun hpruned => ?_⟩
  have hdropped : Dropped ⟨some [], fun _ => 0⟩ (step twoHosts addA World.start).2
      ("aa:00:00:00:00:01".toList, "eth0".toList, "10.0.0.1".toList) := by
    refine ⟨by decide, by decide, fun mac h hget => ?_⟩
    cases hget
  exact hpruned _ hdropped ⟨hostRoute "10.0.0.1".toList 3 nhA, by decide, rfl, rfl, rfl⟩

end V4WithV6Nh.Manager
