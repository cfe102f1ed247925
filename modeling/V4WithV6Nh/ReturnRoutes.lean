import V4WithV6Nh.ManagerSpec
import V4WithV6Nh.Run

/-!
# The Lease Table and the Kernel's Return Routes

The daemon remembers for each tracked host the next hop it has installed, and acts only
when the best next hop is another one. This module compares that memory with the FIB.

`Agrees` says that every remembered next hop has its route in the kernel. It is an
invariant as long as no two tracked hosts have the same address (`Distinct`), because
the table is keyed by MAC and the routes by address: a line that announces the address
of one tracked MAC for another moves the route of the first away from under it.

## Main results

* `agrees_of_noSharing`: in every run in which no line announces an address that another
  tracked MAC has, the table agrees with the kernel, and what the daemon does for one
  MAC leaves every other host and the routes to its address alone.
* `route_mem_reconcileAll_iff`: after a sweep the route of a host is in the kernel
  exactly when it was there before or the best next hop is not the remembered one; a
  route that somebody else removed stays removed.
-/

namespace V4WithV6Nh.Manager

/-! ### Addresses -/

/-- The address of a tracked MAC. -/
def World.address (w : World) (mac : Text) : Option Text :=
  (w.hosts.get mac).map Host.ip4

/-- No two tracked hosts have the same address. -/
def Distinct (w : World) : Prop :=
  ∀ mac mac' ip4, w.address mac = some ip4 → w.address mac' = some ip4 → mac = mac'

/-- The entry of `mac`, if it has one, and the routes to its address are the same in `w`
and `w'`. -/
def Untouched (mac : Text) (w w' : World) : Prop :=
  ∀ h, w.hosts.get mac = some h → w'.hosts.get mac = some h ∧
    ∀ r : Route4, r.dst = h.ip4 → (r ∈ w'.tables.fib ↔ r ∈ w.tables.fib)

theorem Untouched.refl (mac : Text) (w : World) : Untouched mac w w :=
  fun _ hh => ⟨hh, fun _ _ => Iff.rfl⟩

theorem Untouched.trans {mac : Text} {w w' w'' : World} (h : Untouched mac w w')
    (h' : Untouched mac w' w'') : Untouched mac w w'' := by
  intro x hx
  obtain ⟨hx', hroutes⟩ := h x hx
  obtain ⟨hx'', hroutes'⟩ := h' x hx'
  exact ⟨hx'', fun r hr => (hroutes' r hr).trans (hroutes r hr)⟩

/-- The address of a tracked host. -/
theorem address_of_get {w : World} {mac : Text} {h : Host} (hh : w.hosts.get mac = some h) :
    w.address mac = some h.ip4 := by
  rw [World.address, hh]
  rfl

/-- The address is part of the lease. -/
theorem address_eq_lease (w : World) (mac : Text) :
    w.address mac = (w.lease mac).map Prod.snd := by
  rw [World.address, World.lease, Option.map_map]
  rfl

/-- Distinctness depends on the table only. -/
theorem Distinct.congr {w w' : World} (hd : Distinct w) (hhosts : w'.hosts = w.hosts) :
    Distinct w' := by
  intro m m' a ha ha'
  rw [World.address, hhosts] at ha ha'
  exact hd m m' a ha ha'

/-- Two different tracked hosts have different addresses. -/
theorem Distinct.ne {w : World} {mac mac' : Text} {h h' : Host} (hd : Distinct w)
    (hne : mac' ≠ mac) (hh : w.hosts.get mac = some h) (hh' : w.hosts.get mac' = some h') :
    h'.ip4 ≠ h.ip4 := fun heq =>
  hne (hd mac' mac h.ip4 (heq ▸ address_of_get hh') (address_of_get hh))

/-- A change of the routes to other addresses leaves a host untouched. -/
theorem untouched_of_elsewhere {w w' : World} {mac : Text} {ip4 : Text}
    (hget : w'.hosts.get mac = w.hosts.get mac)
    (hne : ∀ h, w.hosts.get mac = some h → h.ip4 ≠ ip4)
    (hroutes : SameElsewhere ip4 w.tables w'.tables) : Untouched mac w w' := by
  intro h hh
  refine ⟨hget.trans hh, fun r hr => hroutes r ?_⟩
  rw [hr]
  exact hne h hh

section Frame

variable {env : Env} {iface mac mac' ip4 : Text} {w : World}

/-- A lease line for one MAC leaves every other host alone. -/
theorem untouched_record (hd : Distinct w) (hne : mac' ≠ mac) :
    Untouched mac' w (record env iface mac ip4 w) := by
  cases hh : w.hosts.get mac with
  | none =>
      intro h' hh'
      rw [record_tables hh, record_get_of_ne hne]
      exact ⟨hh', fun _ _ => Iff.rfl⟩
  | some h =>
      exact untouched_of_elsewhere (record_get_of_ne hne) (fun h' hh' => hd.ne hne hh hh')
        (record_elsewhere hh)

/-- A release of one MAC leaves every other host alone. -/
theorem untouched_onRelease (hd : Distinct w) (hne : mac' ≠ mac) :
    Untouched mac' w (onRelease env mac ip4 w) := by
  cases hh : w.hosts.get mac with
  | none =>
      rw [onRelease_of_get_eq_none hh]
      exact Untouched.refl _ _
  | some h =>
      exact untouched_of_elsewhere (onRelease_get_of_ne hne)
        (fun h' hh' => hd.ne hne hh hh') (onRelease_elsewhere hh)

/-- A lease line for an address that no other MAC has keeps the addresses distinct. -/
theorem distinct_record (env : Env) (iface : Text) (hd : Distinct w)
    (hfree : ∀ mac', w.address mac' = some ip4 → mac' = mac) :
    Distinct (record env iface mac ip4 w) := by
  obtain ⟨h, hh, -, hip⟩ := record_get_self env iface mac ip4 w
  have hself : (record env iface mac ip4 w).address mac = some ip4 := by
    rw [address_of_get hh, hip]
  have hother : ∀ m, m ≠ mac → (record env iface mac ip4 w).address m = w.address m :=
    fun m hm => by rw [World.address, record_get_of_ne hm, World.address]
  intro m m' a ha ha'
  by_cases hm : m = mac <;> by_cases hm' : m' = mac
  · rw [hm, hm']
  · subst hm
    obtain rfl : ip4 = a := Option.some.inj (hself.symm.trans ha)
    rw [hother m' hm'] at ha'
    exact (hfree m' ha').symm
  · subst hm'
    obtain rfl : ip4 = a := Option.some.inj (hself.symm.trans ha')
    rw [hother m hm] at ha
    exact hfree m ha
  · rw [hother m hm] at ha
    rw [hother m' hm'] at ha'
    exact hd m m' a ha ha'

/-- A release keeps the addresses distinct. -/
theorem distinct_onRelease (hd : Distinct w) : Distinct (onRelease env mac ip4 w) := by
  have hsub : ∀ m a, (onRelease env mac ip4 w).address m = some a →
      w.address m = some a := by
    intro m a ha
    by_cases hm : m = mac
    · subst hm
      rw [World.address, onRelease_get_self] at ha
      cases ha
    · rwa [World.address, onRelease_get_of_ne hm] at ha
  exact fun m m' a ha ha' => hd m m' a (hsub m a ha) (hsub m' a ha')

variable [UnicodeTables]

/-- `evaluate` keeps every address. -/
theorem evaluate_address : (evaluate env mac w).2.address = w.address := by
  funext m
  rw [address_eq_lease, address_eq_lease, evaluate_lease]

/-- `evaluate` keeps the addresses distinct. -/
theorem distinct_evaluate (env : Env) (mac : Text) (hd : Distinct w) :
    Distinct (evaluate env mac w).2 := by
  rw [Distinct, evaluate_address]
  exact hd

/-- `evaluate` of one MAC leaves every other host alone. -/
theorem untouched_evaluate (env : Env) (hd : Distinct w) (hne : mac' ≠ mac) :
    Untouched mac' w (evaluate env mac w).2 := by
  cases hh : w.hosts.get mac with
  | none =>
      rw [evaluate_of_get_eq_none hh]
      exact Untouched.refl _ _
  | some h =>
      exact untouched_of_elsewhere (evaluate_get_of_ne hne)
        (fun h' hh' => hd.ne hne hh hh') (evaluate_elsewhere hh)

/-- A sweep keeps the addresses distinct. -/
theorem distinct_evaluateEach (env : Env) (macs : List Text) (hd : Distinct w) :
    Distinct (evaluateEach env macs w).2 :=
  evaluateEach_invariant (fun mac _ _ h => distinct_evaluate env mac h) hd

/-- A sweep leaves the hosts alone that are not on its list. -/
theorem untouched_evaluateEach (env : Env) (hd : Distinct w) {macs : List Text}
    (hmac : mac ∉ macs) :
    Untouched mac w (evaluateEach env macs w).2 := by
  have hinv : Distinct (evaluateEach env macs w).2 ∧
      Untouched mac w (evaluateEach env macs w).2 := by
    refine evaluateEach_invariant (I := fun w' => Distinct w' ∧ Untouched mac w w') ?_
      ⟨hd, Untouched.refl _ _⟩
    rintro m hm w' ⟨hd', hu⟩
    have hne : mac ≠ m := fun heq => hmac (heq ▸ hm)
    exact ⟨distinct_evaluate env m hd', hu.trans (untouched_evaluate env hd' hne)⟩
  exact hinv.2

end Frame

/-! ### Agreement with the kernel -/

/-- The route of a remembered next hop is in the kernel, out of the host's interface. -/
def Installed (ifindex : Text → Option ℕ) (h : Host) (t : Tables) : Prop :=
  ∀ n, h.nh = some n → ∃ idx, ifindex h.iface = some idx ∧ hostRoute h.ip4 idx n ∈ t.fib

/-- Every remembered next hop is installed. -/
def Agrees (ifindex : Text → Option ℕ) (w : World) : Prop :=
  ∀ mac h, w.hosts.get mac = some h → Installed ifindex h w.tables

/-- Every netlink call succeeds. -/
def NoFaults (env : Env) : Prop := ∀ c, env.fault c = none

/-- The interface indexes of `env` are those of `ifindex`. -/
def Stable (ifindex : Text → Option ℕ) (env : Env) : Prop :=
  ∀ i, linkLookup env.links i = ifindex i

theorem NoFaults.guarded {env : Env} (h : NoFaults env) : Guarded env :=
  fun _ => ⟨h _, h _⟩

section Agreement

variable {ifindex : Text → Option ℕ} {env : Env} {mac iface ip4 : Text} {w w' : World}

/-- Being installed depends on the interface, the address and the next hop only. -/
theorem Installed.congr {h h' : Host} {t : Tables} (hi : Installed ifindex h t)
    (hiface : h'.iface = h.iface) (hip : h'.ip4 = h.ip4) (hnh : h'.nh = h.nh) :
    Installed ifindex h' t := by
  intro n hn
  rw [hiface, hip]
  exact hi n (hnh ▸ hn)

/-- An entry whose routes did not change is still installed. -/
theorem Untouched.installed {h : Host} (hu : Untouched mac w w')
    (hh : w.hosts.get mac = some h) (hi : Installed ifindex h w.tables) :
    Installed ifindex h w'.tables := by
  intro n hn
  obtain ⟨idx, hidx, hmem⟩ := hi n hn
  exact ⟨idx, hidx, ((hu h hh).2 _ rfl).mpr hmem⟩

/-- A change that leaves all hosts but `mac` untouched keeps the agreement if it keeps
that of `mac`. -/
theorem Agrees.of_untouched (ha : Agrees ifindex w)
    (hget : ∀ m, m ≠ mac → w'.hosts.get m = w.hosts.get m)
    (hu : ∀ m, m ≠ mac → Untouched m w w')
    (hself : ∀ h, w'.hosts.get mac = some h → Installed ifindex h w'.tables) :
    Agrees ifindex w' := by
  intro m h hh
  by_cases hm : m = mac
  · subst hm
    exact hself h hh
  · have hh' := (hget m hm).symm.trans hh
    exact (hu m hm).installed hh' (ha m h hh')

/-- A table that remembers nothing agrees. -/
theorem agrees_of_fresh (hfresh : ∀ mac h, w.hosts.get mac = some h → h.nh = none) :
    Agrees ifindex w := by
  intro mac h hh n hn
  rw [hfresh mac h hh] at hn
  cases hn

/-- Agreement depends on the table and the routes only. -/
theorem Agrees.congr (ha : Agrees ifindex w) (hhosts : w'.hosts = w.hosts)
    (htables : w'.tables = w.tables) : Agrees ifindex w' := by
  intro m h hh
  rw [hhosts] at hh
  rw [htables]
  exact ha m h hh

/-- A lease line keeps the agreement. -/
theorem agrees_record (env : Env) (iface mac ip4 : Text) (hd : Distinct w)
    (ha : Agrees ifindex w) : Agrees ifindex (record env iface mac ip4 w) := by
  refine ha.of_untouched (fun m hm => record_get_of_ne hm)
    (fun m hm => untouched_record hd hm) fun h hh => ?_
  obtain ⟨h₀, hh₀, -, -, he⟩ | ⟨w₁, -, he⟩ := record_cases env iface mac ip4 w
  · rw [he] at hh ⊢
    obtain rfl := OrderedDict.eq_of_get_set_self hh
    exact (ha mac h₀ hh₀).congr rfl rfl rfl
  · rw [he] at hh
    obtain rfl := OrderedDict.eq_of_get_set_self hh
    intro n hn
    cases hn

/-- A release keeps the agreement. -/
theorem agrees_onRelease (hd : Distinct w) (ha : Agrees ifindex w) :
    Agrees ifindex (onRelease env mac ip4 w) := by
  refine ha.of_untouched (fun m hm => onRelease_get_of_ne hm)
    (fun m hm => untouched_onRelease hd hm) fun h hh => ?_
  rw [onRelease_get_self] at hh
  cases hh

/-- `evaluate` keeps the agreement if its route request does not fail. -/
theorem agrees_evaluate [UnicodeTables] (hfault : env.fault (.routeReplace mac) = none)
    (hs : Stable ifindex env) (hd : Distinct w) (ha : Agrees ifindex w) :
    Agrees ifindex (evaluate env mac w).2 := by
  refine ha.of_untouched (fun m hm => evaluate_get_of_ne hm)
    (fun m hm => untouched_evaluate env hd hm) fun h' hh' => ?_
  obtain ⟨e, he⟩ | ⟨he, -⟩ | ⟨h, idx, nh, gua, hh, hidx, -, he⟩ := evaluate_cases env mac w
  · rw [he] at hh' ⊢
    exact ha mac h' hh'
  · rw [he] at hh' ⊢
    exact ha mac h' hh'
  · rw [he] at hh' ⊢
    have hsol := solicit_fst env mac nh gua h
    cases nh with
    | none =>
        obtain rfl := OrderedDict.eq_of_get_set_self hh'
        exact (ha mac h hh).congr (hsol ▸ rfl) (hsol ▸ rfl) (hsol ▸ rfl)
    | some n =>
        simp only [follow] at hh' ⊢
        split at hh'
        · rename_i hnh
          rw [if_pos hnh]
          obtain rfl := OrderedDict.eq_of_get_set_self hh'
          exact (ha mac h hh).congr (hsol ▸ rfl) (hsol ▸ rfl) (hsol ▸ rfl)
        · rename_i hnh
          rw [if_neg hnh]
          obtain rfl := OrderedDict.eq_of_get_set_self hh'
          intro n' hn'
          obtain rfl : n = n' := Option.some.inj hn'
          refine ⟨idx, ?_, install_mem hfault⟩
          rw [← hs, ← hidx, hsol]

end Agreement

/-! ### Runs -/

/-- What happens to the daemon and its kernel: the daemon takes a turn, or others change
the IPv4 tables. -/
inductive Happening
  | turn (env : Env) (ev : Event)
  | others (t : Tables)

section Runs

variable [UnicodeTables]

/-- A turn in which every netlink call succeeds and the interface indexes are stable, or
a change by others of anything but proto-149 routes. -/
def Undisturbed (ifindex : Text → Option ℕ) (w : World) : Happening → World → Prop
  | .turn env ev, w' =>
      NoFaults env ∧ Stable ifindex env ∧ step env ev w = (.ok (), w')
  | .others t, w' =>
      (∀ r : Route4, r.proto = RT_PROTO → (r ∈ t.fib ↔ r ∈ w.tables.fib)) ∧
        w' = { w with tables := t }

/-- No `add` or `old` line announces an address that another tracked MAC has. -/
def NoSharing (w : World) : Happening → Prop
  | .turn _ (.line line) => ∀ iface mac ip4, readLine line = some (.lease iface mac ip4) →
      ∀ mac', w.address mac' = some ip4 → mac' = mac
  | _ => True

/-- **One step keeps the agreement** if it makes no two hosts share an address. -/
theorem agrees_step {ifindex : Text → Option ℕ} {w w' : World} {e : Happening}
    (hinv : Distinct w ∧ Agrees ifindex w) (hfree : NoSharing w e)
    (hstep : Undisturbed ifindex w e w') : Distinct w' ∧ Agrees ifindex w' := by
  cases e with
  | others t =>
      obtain ⟨hroutes, rfl⟩ := hstep
      refine ⟨hinv.1, fun mac h hh n hn => ?_⟩
      obtain ⟨idx, hidx, hmem⟩ := hinv.2 mac h hh n hn
      exact ⟨idx, hidx, (hroutes _ rfl).mpr hmem⟩
  | turn env ev =>
      obtain ⟨hfaults, hs, hstep⟩ := hstep
      have heq : w' = (step env ev w).2 := by rw [hstep]
      rw [heq]
      refine step_invariant (I := fun w => Distinct w ∧ Agrees ifindex w) ?_ ?_ ?_ hinv
      · intro mac w ⟨hd, ha⟩
        exact ⟨distinct_evaluate env mac hd, agrees_evaluate (hfaults _) hs hd ha⟩
      · rintro line iface mac ip4 rfl hread
        have hd := distinct_record env iface hinv.1 (hfree iface mac ip4 hread)
        have ha := agrees_record env iface mac ip4 hinv.1 hinv.2
        exact ⟨hd.congr persist_hosts, ha.congr persist_hosts persist_tables⟩
      · rintro line mac ip4 rfl hread
        exact ⟨distinct_onRelease hinv.1, agrees_onRelease hinv.1 hinv.2⟩

/-- **Agreement along every run without sharing**: from a state in which nothing is
remembered as installed, every run in which no line announces an address that another
tracked MAC has ends with every remembered next hop installed, and with each MAC's
evaluation, release and change of lease leaving all other hosts and their routes
alone. -/
theorem agrees_of_noSharing {ifindex : Text → Option ℕ} {w w' : World}
    {es : List Happening} (hfresh : ∀ mac h, w.hosts.get mac = some h → h.nh = none)
    (hd : Distinct w)
    (hrun : Run (fun w e w' => NoSharing w e ∧ Undisturbed ifindex w e w') w es w') :
    Agrees ifindex w' ∧ ∀ (env : Env) (mac mac' : Text), mac' ≠ mac →
      Untouched mac' w' (evaluate env mac w').2 ∧
      ∀ iface ip4, Untouched mac' w' (onRelease env mac ip4 w') ∧
        Untouched mac' w' (record env iface mac ip4 w') := by
  obtain ⟨hd', ha'⟩ := hrun.invariant (I := fun w => Distinct w ∧ Agrees ifindex w)
    (fun w e w' hinv ⟨hfree, hstep⟩ => agrees_step hinv hfree hstep)
    ⟨hd, agrees_of_fresh hfresh⟩
  exact ⟨ha', fun env mac mac' hne => ⟨untouched_evaluate env hd' hne, fun iface ip4 =>
    ⟨untouched_onRelease hd' hne, untouched_record hd' hne⟩⟩⟩

/-- Every event can be taken as a turn of a run. -/
theorem undisturbed_turn {ifindex : Text → Option ℕ} {env : Env} (hf : NoFaults env)
    (hs : Stable ifindex env) (ev : Event) (w : World) :
    Undisturbed ifindex w (.turn env ev) (step env ev w).2 :=
  ⟨hf, hs, Prod.ext (step_ok hf.guarded ev w) rfl⟩

end Runs

/-! ### Two hosts with one address -/

/-- The link-local addresses of the two hosts of `twoHosts`. -/
def nhA : IPv6 := 0xfe80000000000000000000000000000a#128

def nhB : IPv6 := 0xfe80000000000000000000000000000b#128

/-- Two hosts on `eth0`, each in the neighbour cache with its link-local address. -/
def twoHosts : Env where
  links := [⟨"eth0".toList, 3, 1⟩]
  routes6 := []
  neigh6 := [⟨3, some nhA, some "aa:00:00:00:00:01".toList, 2⟩,
    ⟨3, some nhB, some "aa:00:00:00:00:02".toList, 2⟩]
  fault := fun _ => none
  monotonic := fun _ => 0
  stateWriteFails := false

/-- The first host is leased an address. -/
def addA : Event := .line "add eth0 aa:00:00:00:00:01 10.0.0.1".toList

/-- The same address is announced for the second host. -/
def oldB : Event := .line "old eth0 aa:00:00:00:00:02 10.0.0.1".toList

/-- The first host of `twoHosts` after `addA`. -/
def hostA : Host := ⟨"eth0".toList, "10.0.0.1".toList, some nhA, some GUA_PROBE_DELAY⟩

theorem distinct_start : Distinct World.start := by
  intro mac mac' ip4 h
  cases h

theorem fresh_start : ∀ mac h, World.start.hosts.get mac = some h → h.nh = none := by
  intro mac h hh
  cases hh

theorem noSharing_addA : NoSharing World.start (.turn twoHosts addA) := by
  intro iface mac ip4 _ mac' h
  cases h

theorem undisturbed_addA : Undisturbed (linkLookup twoHosts.links) World.start
    (.turn twoHosts addA) (step twoHosts addA World.start).2 :=
  undisturbed_turn (fun _ => rfl) (fun _ => rfl) addA World.start

/-- The second host is leased an address of its own. -/
def addB : Event := .line "add eth0 aa:00:00:00:00:02 10.0.0.2".toList

/-- The first host releases its address. -/
def delA : Event := .line "del eth0 aa:00:00:00:00:01 10.0.0.1".toList

/-- The default route of the router. -/
def uplink : Route4 :=
  ⟨RT_TABLE_MAIN, INADDR_ANY, 0, 0, 0, some 2, 16, some "192.0.2.1".toList, none⟩

/-- Each host has an address. -/
def bothLeased : World := (step twoHosts addB (step twoHosts addA World.start).2).2

/-- Others have added a route. -/
def crowded : World :=
  { bothLeased with
    tables := { bothLeased.tables with fib := bothLeased.tables.fib ++ [uplink] } }

/-- The first host has released its address, and the second one has been given it. -/
def handedOver : World := (step twoHosts oldB (step twoHosts delA crowded).2).2

/-- What has happened until then. -/
def handover : List Happening :=
  [.turn twoHosts addA, .turn twoHosts addB, .others crowded.tables, .turn twoHosts delA,
    .turn twoHosts oldB]

/-- A lease line is no sharing if no other entry has its address. -/
theorem noSharing_of_entries {env : Env} {line iface mac ip4 : Text} {w : World}
    (hread : readLine line = some (.lease iface mac ip4))
    (hfree : ∀ e ∈ w.hosts.entries, e.2.ip4 = ip4 → e.1 = mac) :
    NoSharing w (.turn env (.line line)) := by
  intro iface' mac' ip4' hread' m hm
  obtain ⟨-, rfl, rfl⟩ := LeaseLine.lease.inj (Option.some.inj (hread.symm.trans hread'))
  obtain ⟨h, hh, hip⟩ := Option.map_eq_some_iff.mp hm
  exact hfree (m, h) (OrderedDict.get_eq_some_iff.mp hh) hip

theorem readLine_addB : readLine "add eth0 aa:00:00:00:00:02 10.0.0.2".toList =
    some (.lease "eth0".toList "aa:00:00:00:00:02".toList "10.0.0.2".toList) := by decide

theorem readLine_oldB : readLine "old eth0 aa:00:00:00:00:02 10.0.0.1".toList =
    some (.lease "eth0".toList "aa:00:00:00:00:02".toList "10.0.0.1".toList) := by decide

/-- Others leave the proto-149 routes alone. -/
theorem undisturbed_crowded : Undisturbed (linkLookup twoHosts.links) bothLeased
    (.others crowded.tables) crowded := by
  refine ⟨fun r hproto => ?_, rfl⟩
  have hne : r ≠ uplink := by
    rintro rfl
    cases hproto
  simp [crowded, hne]

/-- The address is free when the second host is given it. -/
theorem run_handover : Run (fun w e w' => NoSharing w e ∧
    Undisturbed (linkLookup twoHosts.links) w e w') World.start handover handedOver := by
  have hturn : ∀ ev w, Undisturbed (linkLookup twoHosts.links) w (.turn twoHosts ev)
      (step twoHosts ev w).2 := undisturbed_turn (fun _ => rfl) fun _ => rfl
  have haddB : NoSharing (step twoHosts addA World.start).2 (.turn twoHosts addB) :=
    noSharing_of_entries readLine_addB (by decide)
  have hdelA : NoSharing crowded (.turn twoHosts delA) := by
    intro iface mac ip4 hread
    cases hread
  have holdB : NoSharing (step twoHosts delA crowded).2 (.turn twoHosts oldB) :=
    noSharing_of_entries readLine_oldB (by decide)
  exact .cons ⟨noSharing_addA, undisturbed_addA⟩ (.cons ⟨haddB, hturn _ _⟩
    (.cons ⟨trivial, undisturbed_crowded⟩ (.cons ⟨hdelA, hturn _ _⟩
      (Run.single ⟨holdB, hturn _ _⟩))))

/-- The table agrees with the kernel when the address has been handed over. -/
theorem agrees_of_noSharing_handover :
    Agrees (linkLookup twoHosts.links) handedOver ∧ ∀ (env : Env) (mac mac' : Text), mac' ≠ mac →
      Untouched mac' handedOver (evaluate env mac handedOver).2 ∧
      ∀ iface ip4, Untouched mac' handedOver (onRelease env mac ip4 handedOver) ∧
        Untouched mac' handedOver (record env iface mac ip4 handedOver) :=
  agrees_of_noSharing fresh_start distinct_start run_handover

/-- **A shared address breaks the agreement**: announcing the address of the first host
for the second moves the route to the second, while the first host is still remembered
with its own next hop. -/
theorem shared_address_disagrees :
    ∃ (ifindex : Text → Option ℕ) (es : List Happening) (w : World),
      Run (Undisturbed ifindex) World.start es w ∧ ¬ Agrees ifindex w := by
  have hrun := (Run.single undisturbed_addA).snoc
    (undisturbed_turn (fun _ => rfl) (fun _ => rfl) oldB _)
  refine ⟨_, _, _, hrun, fun ha => ?_⟩
  have hget : ((step twoHosts oldB (step twoHosts addA World.start).2).2.hosts.get
      "aa:00:00:00:00:01".toList) = some hostA := by decide
  obtain ⟨idx, hidx, hmem⟩ := ha _ _ hget nhA rfl
  obtain rfl : 3 = idx := Option.some.inj hidx
  revert hmem
  decide

/-! ### Sweeps -/

section Sweeps

variable [UnicodeTables] {env : Env} {mac : Text} {h : Host} {idx : ℕ} {nh : IPv6}
  {gua : Option IPv6} {w : World}

/-- One evaluation puts the route of a host with a best next hop in the kernel exactly
when it is not the remembered next hop; it never compares its memory with the FIB. -/
theorem route_mem_evaluate_iff (hf : NoFaults env) (hh : w.hosts.get mac = some h)
    (hidx : linkLookup env.links h.iface = some idx)
    (hbest : bestNexthop env idx mac = .ok (some nh, gua)) :
    hostRoute h.ip4 idx nh ∈ (evaluate env mac w).2.tables.fib ↔
      h.nh ≠ some nh ∨ hostRoute h.ip4 idx nh ∈ w.tables.fib := by
  have hsol := solicit_fst env mac (some nh) gua h
  have hip : (solicit env mac (some nh) gua h).1.ip4 = h.ip4 := by rw [hsol]
  have hnh : (solicit env mac (some nh) gua h).1.nh = h.nh := by rw [hsol]
  rw [evaluate_of_best hf.guarded hh hidx hbest]
  simp only [follow, hnh]
  by_cases heq : h.nh = some nh
  · rw [if_pos heq]
    exact ⟨Or.inr, fun hor => hor.resolve_left fun hne => hne heq⟩
  · rw [if_neg heq]
    exact ⟨fun _ => Or.inl heq, fun _ => hip ▸ install_mem (hf _)⟩

/-- The same for a sweep over a list of MACs that names the host once. -/
theorem route_mem_evaluateEach_iff (hf : NoFaults env) {macs : List Text}
    (hnodup : macs.Nodup) (hmac : mac ∈ macs) (hd : Distinct w)
    (hh : w.hosts.get mac = some h) (hidx : linkLookup env.links h.iface = some idx)
    (hbest : bestNexthop env idx mac = .ok (some nh, gua)) :
    hostRoute h.ip4 idx nh ∈ (evaluateEach env macs w).2.tables.fib ↔
      h.nh ≠ some nh ∨ hostRoute h.ip4 idx nh ∈ w.tables.fib := by
  obtain ⟨before, after, hbefore, hafter, hsweep⟩ :=
    evaluateEach_once (evaluateEach_ok hf.guarded macs w) hnodup hmac
  have hd' := distinct_evaluateEach env before hd
  obtain ⟨hh', hroutes⟩ := untouched_evaluateEach env hd hbefore h hh
  -- the evaluation of the host itself keeps the address, which frames the rest of the sweep
  obtain ⟨h₁, hh₁, -, hip⟩ := evaluate_get_self env hh'
  have hframe := (untouched_evaluateEach env (distinct_evaluate env mac hd') hafter h₁ hh₁).2
    (hostRoute h.ip4 idx nh) hip.symm
  rw [hsweep, hframe, route_mem_evaluate_iff hf hh' hidx hbest, hroutes _ rfl]

/-- **What a sweep repairs**: it leaves the route of a tracked host with a best next hop
in the kernel exactly when that is not the next hop the daemon remembers, or the route
was there already. -/
theorem route_mem_reconcileAll_iff (hf : NoFaults env) (hd : Distinct w)
    (hh : w.hosts.get mac = some h) (hidx : linkLookup env.links h.iface = some idx)
    (hbest : bestNexthop env idx mac = .ok (some nh, gua)) :
    hostRoute h.ip4 idx nh ∈ (reconcileAll env w).2.tables.fib ↔
      h.nh ≠ some nh ∨ hostRoute h.ip4 idx nh ∈ w.tables.fib :=
  route_mem_evaluateEach_iff hf w.hosts.nodup (OrderedDict.mem_keys_iff.mpr ⟨h, hh⟩) hd hh
    hidx hbest

end Sweeps

/-! ### A flushed route -/

theorem distinct_addA : Distinct (step twoHosts addA World.start).2 :=
  (agrees_step ⟨distinct_start, agrees_of_fresh fresh_start⟩ noSharing_addA
    undisturbed_addA).1

theorem get_addA : (step twoHosts addA World.start).2.hosts.get
    "aa:00:00:00:00:01".toList = some hostA := by decide

/-- A sweep right after `addA` keeps the route. -/
theorem route_mem_reconcileAll_addA : hostRoute hostA.ip4 3 nhA ∈
    (reconcileAll twoHosts (step twoHosts addA World.start).2).2.tables.fib :=
  (route_mem_reconcileAll_iff (fun _ => rfl) distinct_addA get_addA rfl rfl).mpr
    (Or.inr (by decide))

/-- **A flushed route stays lost**: when others flush the IPv4 routes after `addA`, the
next sweep does not restore the route of the host. -/
theorem flushed_route_stays_lost :
    ∃ (ifindex : Text → Option ℕ) (es : List Happening) (w : World) (t : Tables)
      (env : Env) (mac : Text) (h : Host) (idx : ℕ) (nh : IPv6) (gua : Option IPv6),
      Run (Undisturbed ifindex) World.start es w ∧ NoFaults env ∧
      Distinct { w with tables := t } ∧ w.hosts.get mac = some h ∧
      linkLookup env.links h.iface = some idx ∧
      bestNexthop env idx mac = .ok (some nh, gua) ∧
      hostRoute h.ip4 idx nh ∉
        (reconcileAll env { w with tables := t }).2.tables.fib := by
  refine ⟨_, _, _, ⟨[], []⟩, twoHosts, _, hostA, 3, nhA, none,
    Run.single undisturbed_addA, fun _ => rfl, distinct_addA.congr rfl, get_addA, rfl, rfl,
    ?_⟩
  decide

end V4WithV6Nh.Manager
