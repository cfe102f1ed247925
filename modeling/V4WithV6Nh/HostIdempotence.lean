import V4WithV6Nh.HostFib

/-!
# A Second Pass of the Host Daemon Does Nothing

The daemon is woken by netlink events, its own changes included. So it comes to rest only
if a pass over what the pass before left changes nothing. A pass writes tables it reads
again: the IPv4 default routes, which decide the sentinel gate, and the sentinel's
neighbour entry. And it compares what it is about to program with what it remembers.

The gate looks at routes of other programs only, and a pass removes none of these if the
daemon has its metric to itself (`MetricReserved`). So the second pass decides as the
first one did: it follows the same router, which is `Settled`, or it ceases again and
remembers nothing.

## Main results

* `reconcile_cases_of_ok`: what a pass does when its calls succeed, and why.
* `remembers_own_mode`: along every run an interface remembers a gateway in native mode
  and a MAC in static mode, and never the other.
* `second_pass_quiet`: a second pass sends at most a solicitation.
-/

namespace V4WithV6Nh.HostDaemon

open Interface

/-! ### A pass in which the calls succeed -/

section Decision

variable {env : Env} {i j : Interface} {w : World} {t t' : Tables} {gw : IPv6}

/-- Every netlink call succeeds, but for deletions, which may be answered with any
error. -/
def CallsSucceed (env : Env) : Prop :=
  ∀ c, c ≠ .routeDel → c ≠ .neighDel → env.fault c = none

/-- There is nothing to follow: the sentinel is not there, or no router. -/
def Idle (env : Env) (i : Interface) (t : Tables) : Prop :=
  i.gate env t = .ok false ∨ i.gate env t = .ok true ∧ i.selectRouter env = .ok none

/-- The interface with nothing remembered. -/
def Interface.forget (i : Interface) : Interface :=
  { i with installedVia := none, installedMac := none }

/-- When the dump succeeds the gate is open or closed. -/
theorem gate_ok (hok : CallsSucceed env) (i : Interface) (t : Tables) :
    ∃ b, i.gate env t = .ok b := by
  rw [gate, sentinelPresent, hok _ (by decide) (by decide)]
  split
  · exact ⟨_, rfl⟩
  · exact ⟨true, rfl⟩

/-- When the dump succeeds there is a router or none. -/
theorem selectRouter_ok (hok : CallsSucceed env) (i : Interface) :
    ∃ best, i.selectRouter env = .ok best := by
  rw [selectRouter, hok _ (by decide) (by decide)]
  exact ⟨_, rfl⟩

/-- A pass that finds the interface and nothing to follow ceases. -/
theorem reconcile_of_idle (hlink : env.fault .linkLookup = none)
    (hindex : (i.resolveIndex env).index.isSome) (h : Idle env (i.resolveIndex env) w.tables) :
    i.reconcile env w = (.ok (), (i.resolveIndex env).cease env w) := by
  obtain ⟨idx, hidx⟩ := Option.isSome_iff_exists.mp hindex
  simp only [reconcile, hlink, hidx, reconcilePresent]
  rcases h with hgate | ⟨hgate, hselect⟩
  · rw [hgate]
  · simp only [hgate, hselect]

/-- A pass that does not find the interface forgets what it installed. -/
theorem reconcile_of_gone (hlink : env.fault .linkLookup = none)
    (hindex : (i.resolveIndex env).index = none) :
    i.reconcile env w = (.ok (), (i.resolveIndex env).forget, w) := by
  simp only [reconcile, hlink, hindex, forget]

/-- **What a pass does when its calls succeed**: the interface is gone, there is nothing to
follow, or a router is followed. -/
theorem reconcile_cases_of_ok (hok : CallsSucceed env) (i : Interface) (w : World) :
    (i.resolveIndex env).index = none ∨
    (i.resolveIndex env).index.isSome ∧ Idle env (i.resolveIndex env) w.tables ∨
    ∃ gw, Follows env i w.tables gw := by
  cases hindex : (i.resolveIndex env).index with
  | none => exact Or.inl rfl
  | some idx =>
      refine Or.inr ?_
      obtain ⟨b, hgate⟩ := gate_ok hok (i.resolveIndex env) w.tables
      cases b with
      | false => exact Or.inl ⟨rfl, Or.inl hgate⟩
      | true =>
          obtain ⟨best, hselect⟩ := selectRouter_ok hok (i.resolveIndex env)
          cases best with
          | none => exact Or.inl ⟨rfl, Or.inr ⟨hgate, hselect⟩⟩
          | some gw =>
              have hlink := hok .linkLookup (by decide) (by decide)
              exact Or.inr ⟨gw, hlink, by rw [hindex]; rfl, hgate, hselect⟩

/-- The gate depends on the routes of other programs only. -/
theorem gate_congr (hindex : j.index = i.index) (hsentinel : j.sentinel = i.sentinel)
    (hrequire : j.requireSentinel = i.requireSentinel)
    (h : t'.fib.filter (fun r => decide (r.proto ≠ RT_PROTO)) =
      t.fib.filter fun r => decide (r.proto ≠ RT_PROTO)) :
    j.gate env t' = i.gate env t := by
  have hany : ∀ l : List Route4, (l.any fun r => decide (r.dstLen = 0 ∧ r.oif = i.index ∧
      r.proto ≠ RT_PROTO ∧ r.gateway = some i.sentinel)) =
        ((l.filter fun r => decide (r.proto ≠ RT_PROTO)).any fun r =>
          decide (r.dstLen = 0 ∧ r.oif = i.index ∧ r.gateway = some i.sentinel)) := by
    intro l
    rw [List.any_filter]
    congr 1
    funext r
    rw [← Bool.decide_and, decide_eq_decide]
    tauto
  simp only [gate, sentinelPresent, hindex, hsentinel, hrequire, hany, h]

end Decision

/-! ### Ceasing -/

section Cease

variable {env : Env} {i : Interface} {w : World}

/-- The interface remembers nothing that belongs to the other mode. -/
def OwnMode (i : Interface) : Prop :=
  if i.staticArp then i.installedVia = none else i.installedMac = none

/-- After ceasing nothing is remembered. -/
theorem cease_fst (hmode : OwnMode i) (env : Env) (w : World) :
    (i.cease env w).1 = i.forget := by
  rw [OwnMode] at hmode
  rw [cease]
  split
  · obtain ⟨hstatic, hi, -⟩ | ⟨hnative, hi, -⟩ := withdraw_cases env i w
    · rw [if_pos hstatic] at hmode
      rw [hi, forget, ← hmode]
    · rw [if_neg (by rw [hnative]; exact Bool.false_ne_true)] at hmode
      rw [hi, forget, ← hmode]
  · rename_i hactive
    rw [active, Bool.or_eq_true, not_or, Option.not_isSome_iff_eq_none,
      Option.not_isSome_iff_eq_none] at hactive
    rw [forget, ← hactive.1, ← hactive.2]

/-- Ceasing removes no route of another program. -/
theorem cease_foreign (env : Env) (i : Interface) (w : World) :
    (i.cease env w).2.tables.fib.filter (fun r => decide (r.proto ≠ RT_PROTO)) =
      w.tables.fib.filter fun r => decide (r.proto ≠ RT_PROTO) := by
  rw [cease]
  split
  · obtain ⟨-, -, hfib⟩ | ⟨-, -, hfib | hfib⟩ := withdraw_cases env i w
    · rw [hfib]
    · rw [hfib]
    · rw [hfib]
      refine filter_eraseP fun r _ hr => ?_
      have hproto : r.proto = RT_PROTO := by
        rw [RouteFilter.accepts, Bool.and_eq_true, Bool.and_eq_true] at hr
        exact (of_decide_eq_true hr.1.1).2.2.2.2
      simp [hproto]
  · rfl

/-- An interface that remembers nothing does not withdraw. -/
theorem cease_forget (i : Interface) (env : Env) (w : World) :
    i.forget.cease env w = (i.forget, w) := rfl

end Cease

/-! ### Installing -/

section Install

variable {env : Env} {i : Interface} {w : World} {t : Tables} {gw : IPv6}

/-- What `install` would program for `gw` is what the interface remembers and, in static
mode, finds. -/
def Settled (env : Env) (i : Interface) (gw : IPv6) (t : Tables) : Prop :=
  if i.staticArp then
    ∀ mac, i.routerLladdr env gw = some mac →
      i.installedMac = some mac ∧ i.neighborPresent env mac t = true
  else i.installedVia = some gw

/-- Installing what is settled does nothing. -/
theorem install_of_settled (h : Settled env i gw w.tables) : i.install env gw w = (i, w) := by
  rw [install]
  rw [Settled] at h
  split
  · rename_i hstatic
    rw [if_pos hstatic] at h
    rw [pinNeighbor]
    split
    · rfl
    · rename_i mac hmac
      rw [if_pos (h mac hmac)]
  · rename_i hnative
    rw [if_neg hnative] at h
    rw [installRoute, if_pos h]

/-- The entry that `_pin_neighbor` asks for is one that `_neighbor_present` accepts. -/
theorem neighborPresent_upsertFirst {mac : Text} {n : Neigh4 → Bool} (hok : CallsSucceed env)
    (hindex : i.index.isSome) (fib : List Route4) (neigh4 : List Neigh4) :
    i.neighborPresent env mac ⟨fib, upsertFirst n (i.pinnedNeighbor mac) neigh4⟩ = true := by
  obtain ⟨idx, hidx⟩ := Option.isSome_iff_exists.mp hindex
  rw [neighborPresent, hok _ (by decide) (by decide), List.any_eq_true]
  refine ⟨i.pinnedNeighbor mac, mem_upsertFirst_self _ _ _, decide_eq_true ⟨?_, rfl, ?_, rfl⟩⟩
  · rw [pinnedNeighbor, hidx]
    rfl
  · simp [pinnedNeighbor, NUD_PERMANENT]

/-- **Everything `install` can do**: leave things as they are, put the route in its slot, or
put the neighbour entry. When the calls succeed it leaves only what is settled. -/
theorem install_cases (env : Env) (i : Interface) (gw : IPv6) (w : World) :
    ((i.install env gw w).1 = i ∧ (i.install env gw w).2.tables = w.tables ∧
      (CallsSucceed env → Settled env i gw w.tables)) ∨
    (i.staticArp = false ∧ (i.install env gw w).1 = { i with installedVia := some gw } ∧
      (i.install env gw w).2.tables.fib =
        upsertFirst (i.defaultRoute gw).sameKey (i.defaultRoute gw) w.tables.fib) ∨
    ∃ mac n, i.staticArp = true ∧ i.routerLladdr env gw = some mac ∧
      (i.install env gw w).1 = { i with installedMac := some mac } ∧
      (i.install env gw w).2.tables =
        ⟨w.tables.fib, upsertFirst n (i.pinnedNeighbor mac) w.tables.neigh4⟩ := by
  rw [install]
  split
  · rename_i hstatic
    rw [pinNeighbor, Settled, if_pos hstatic]
    split
    · rename_i hmac
      refine Or.inl ⟨rfl, rfl, fun _ mac' hmac' => ?_⟩
      rw [hmac] at hmac'
      cases hmac'
    · rename_i mac hmac
      split
      · rename_i hquiet
        refine Or.inl ⟨rfl, rfl, fun _ mac' hmac' => ?_⟩
        obtain rfl : mac = mac' := Option.some.inj (hmac.symm.trans hmac')
        exact hquiet
      · cases hfault : env.fault .neighReplace with
        | none => exact Or.inr (Or.inr ⟨mac, _, hstatic, hmac, rfl, rfl⟩)
        | some e =>
            refine Or.inl ⟨rfl, rfl, fun hok => ?_⟩
            have hnone := hok .neighReplace (by decide) (by decide)
            rw [hfault] at hnone
            cases hnone
  · rename_i hnative
    rw [installRoute, Settled, if_neg hnative]
    split
    · rename_i hvia
      exact Or.inl ⟨rfl, rfl, fun _ => hvia⟩
    · cases hfault : env.fault .routeReplace with
      | none => exact Or.inr (Or.inl ⟨(Bool.not_eq_true _).mp hnative, rfl, rfl⟩)
      | some e =>
          refine Or.inl ⟨rfl, rfl, fun hok => ?_⟩
          have hnone := hok .routeReplace (by decide) (by decide)
          rw [hfault] at hnone
          cases hnone

/-- The gateway or MAC that is remembered after installing, the rest of the interface being
as before. -/
theorem install_fst (env : Env) (i : Interface) (gw : IPv6) (w : World) :
    ∃ via mac, (i.install env gw w).1 = { i with installedVia := via, installedMac := mac } ∧
      (OwnMode i → OwnMode { i with installedVia := via, installedMac := mac }) := by
  obtain ⟨hi, -⟩ | ⟨hnative, hi, -⟩ | ⟨mac, n, hstatic, -, hi, -⟩ := install_cases env i gw w
  · exact ⟨_, _, hi, id⟩
  · refine ⟨_, _, hi, fun h => ?_⟩
    have hno : ¬ i.staticArp = true := by
      rw [hnative]
      exact Bool.false_ne_true
    rw [OwnMode, if_neg hno] at h ⊢
    exact h
  · refine ⟨_, _, hi, fun h => ?_⟩
    rw [OwnMode, if_pos hstatic] at h ⊢
    exact h

/-- **What is installed is settled.** -/
theorem settled_install (hok : CallsSucceed env) (hindex : i.index.isSome) :
    Settled env (i.install env gw w).1 gw (i.install env gw w).2.tables := by
  obtain ⟨hi, htables, hsettled⟩ | ⟨hnative, hi, -⟩ | ⟨mac, n, hstatic, hmac, hi, htables⟩ :=
    install_cases env i gw w
  · rw [hi, htables]
    exact hsettled hok
  · rw [hi, Settled, if_neg (by rw [hnative]; exact Bool.false_ne_true)]
  · rw [hi, htables, Settled, if_pos hstatic]
    intro mac' hmac'
    obtain rfl : mac = mac' := Option.some.inj (hmac.symm.trans hmac')
    exact ⟨rfl, neighborPresent_upsertFirst hok hindex _ _⟩

/-- No IPv4 default route but the interface's own proto-199 one has the daemon's metric. -/
def MetricReserved (i : Interface) (t : Tables) : Prop :=
  ∀ r ∈ t.fib, r.dstLen = 0 → r.priority = i.metric → r.proto = RT_PROTO ∧ r.oif = i.index

/-- Installing removes no route of another program, if the metric is the daemon's own. -/
theorem install_foreign (hreserved : MetricReserved i w.tables) :
    (i.install env gw w).2.tables.fib.filter (fun r => decide (r.proto ≠ RT_PROTO)) =
      w.tables.fib.filter fun r => decide (r.proto ≠ RT_PROTO) := by
  obtain ⟨-, htables, -⟩ | ⟨-, -, hfib⟩ | ⟨mac, n, -, -, -, htables⟩ := install_cases env i gw w
  · rw [htables]
  · rw [hfib]
    refine (filter_upsertFirst_iff (by simp [defaultRoute])).mpr fun x hx => ?_
    have hkey : (i.defaultRoute gw).sameKey x = true := List.find?_some hx
    obtain ⟨-, -, hlen, -, hmetric⟩ := of_decide_eq_true hkey
    have hproto := (hreserved x (List.mem_of_find?_eq_some hx) hlen hmetric).1
    simp [hproto]
  · rw [htables]

end Install

/-! ### Every reachable interface -/

section Reachable

variable {c : Config} {d d' : Daemon}

/-- A pass keeps an interface to its own mode. -/
theorem ownMode_reconcile {i : Interface} (hmode : OwnMode i) (env : Env) (w : World) :
    OwnMode (i.reconcile env w).2.1 := by
  have hmode' : OwnMode (i.resolveIndex env) := hmode
  have hforget : OwnMode (i.resolveIndex env).forget := by
    rw [OwnMode]
    split <;> rfl
  obtain ⟨gw, hfollows⟩ | ⟨-, hc | hc | hc | ⟨-, hc⟩⟩ := reconcile_cases env i w
  · obtain ⟨via, mac, hfst, hown⟩ := install_fst env (i.resolveIndex env) gw
      ((i.resolveIndex env).solicit env gw w)
    rw [reconcile_of_follows hfollows]
    simp only [hfst]
    exact hown hmode'
  · rw [hc]
    exact hmode
  · rw [hc]
    exact hmode'
  · rw [hc]
    exact hforget
  · rw [hc, cease_fst hmode']
    exact hforget

/-- **Along every run** an interface remembers a gateway in native mode, a MAC in static
mode, and never the other. -/
theorem remembers_own_mode {w : World} {es : List Happening}
    (hrun : Run (HostTurn c) ⟨OrderedDict.empty, w⟩ es d) {name : Text} {i : Interface}
    (hget : d.ifaces.get name = some i) : OwnMode i := by
  refine hrun.invariant (I := fun d => ∀ n i, d.ifaces.get n = some i → OwnMode i) ?_ ?_
    name i hget
  · rintro d e d' hinv hturn n j hj
    cases e with
    | refresh names =>
        obtain rfl : d' = d.refresh c names := hturn
        rcases refresh_get hj with h | rfl
        · exact hinv n j h
        · rw [OwnMode]
          split <;> rfl
    | others t =>
        obtain rfl : d' = { d with world := { d.world with tables := t } } := hturn
        exact hinv n j hj
    | pass env name =>
        obtain rfl : d' = d.reconcile env name := hturn
        cases hname : d.ifaces.get name with
        | none =>
            rw [reconcile_of_get_none hname] at hj
            exact hinv n j hj
        | some i =>
            rw [reconcile_of_get hname] at hj
            rcases OrderedDict.get_set_cases hj with ⟨rfl, rfl⟩ | ⟨-, hj⟩
            · exact ownMode_reconcile (hinv n i hname) env d.world
            · exact hinv n j hj
  · intro n i h
    cases h

end Reachable

/-! ### The second pass -/

section SecondPass

variable {env : Env} {i j : Interface} {w : World} {gw : IPv6}

/-- A pass returns without an error, leaves the interface and the tables alone, and sends
at most a solicitation. -/
def Quiet (env : Env) (i : Interface) (w : World) : Prop :=
  ∃ w', i.reconcile env w = (.ok (), i, w') ∧ w'.tables = w.tables ∧
    (w'.trace = w.trace ∨ ∃ gw, w'.trace = .kicked i.name gw :: w.trace)

/-- A pass over an interface that remembers nothing and finds nothing to follow. -/
theorem quiet_forget (hok : CallsSucceed env) (hindex : (i.resolveIndex env).index.isSome)
    (h : Idle env (i.resolveIndex env).forget w.tables) :
    Quiet env (i.resolveIndex env).forget w := by
  refine ⟨w, ?_, rfl, Or.inl rfl⟩
  have hlink := hok .linkLookup (by decide) (by decide)
  rw [reconcile_of_idle (i := (i.resolveIndex env).forget) hlink hindex h]
  exact congrArg _ (cease_forget (i.resolveIndex env) env w)

/-- A pass that follows a settled router. -/
theorem quiet_of_settled (hfollows : Follows env i w.tables gw) (hsame : i.resolveIndex env = i)
    (h : Settled env i gw w.tables) : Quiet env i w := by
  refine ⟨i.solicit env gw w, ?_, solicit_tables, ?_⟩
  · have htables : (i.solicit env gw w).tables = w.tables := solicit_tables
    rw [← htables] at h
    rw [reconcile_of_follows hfollows, hsame, install_of_settled h]
  · rw [solicit]
    split
    · exact Or.inl rfl
    · exact Or.inr ⟨gw, rfl⟩

/-- A pass over what a pass left that ceased. -/
theorem quiet_after_cease (hok : CallsSucceed env) (hmode : OwnMode i)
    (hindex : (i.resolveIndex env).index.isSome) (h : Idle env (i.resolveIndex env) w.tables) :
    Quiet env (i.reconcile env w).2.1 (i.reconcile env w).2.2 := by
  have hmode' : OwnMode (i.resolveIndex env) := hmode
  have hlink := hok .linkLookup (by decide) (by decide)
  have hgate : (i.resolveIndex env).forget.gate env
      ((i.resolveIndex env).cease env w).2.tables = (i.resolveIndex env).gate env w.tables :=
    gate_congr rfl rfl rfl (cease_foreign env (i.resolveIndex env) w)
  rw [reconcile_of_idle hlink hindex h]
  simp only [cease_fst hmode']
  refine quiet_forget hok hindex ?_
  rw [Idle, hgate]
  exact h

/-- A pass over what a pass left that followed a router. -/
theorem quiet_after_follow (hok : CallsSucceed env)
    (hreserved : MetricReserved (i.resolveIndex env) w.tables)
    (hfollows : Follows env i w.tables gw) :
    Quiet env (i.reconcile env w).2.1 (i.reconcile env w).2.2 := by
  have hfollows' := hfollows
  obtain ⟨hlink, hindex, hgate, hselect⟩ := hfollows'
  have htables : ((i.resolveIndex env).solicit env gw w).tables = w.tables := solicit_tables
  rw [← htables] at hreserved hgate
  have hsettled := @settled_install env (i.resolveIndex env)
    ((i.resolveIndex env).solicit env gw w) gw hok hindex
  have hforeign := @install_foreign env (i.resolveIndex env)
    ((i.resolveIndex env).solicit env gw w) gw hreserved
  obtain ⟨via, mac, hfst, -⟩ := install_fst env (i.resolveIndex env) gw
    ((i.resolveIndex env).solicit env gw w)
  rw [reconcile_of_follows hfollows]
  rw [hfst] at hsettled
  simp only [hfst]
  refine quiet_of_settled ⟨hlink, hindex, ?_, hselect⟩ rfl hsettled
  rw [← hgate]
  exact gate_congr rfl rfl rfl hforeign

/-- **A second pass does nothing**: in both modes, for every interface that a run of the
daemon has, over every state of the kernel in which the daemon has its metric to itself. -/
theorem second_pass_quiet {c : Config} {w₀ : World} {es : List Happening} {d : Daemon}
    {name : Text} (hrun : Run (HostTurn c) ⟨OrderedDict.empty, w₀⟩ es d)
    (hget : d.ifaces.get name = some i) (hok : CallsSucceed env)
    (hreserved : MetricReserved (i.resolveIndex env) w.tables) :
    Quiet env (i.reconcile env w).2.1 (i.reconcile env w).2.2 := by
  have hmode := remembers_own_mode hrun hget
  have hlink := hok .linkLookup (by decide) (by decide)
  obtain hgone | ⟨hindex, hidle⟩ | ⟨gw, hfollows⟩ := reconcile_cases_of_ok hok i w
  · rw [reconcile_of_gone hlink hgone]
    exact ⟨w, reconcile_of_gone hlink hgone, rfl, Or.inl rfl⟩
  · exact quiet_after_cease hok hmode hindex hidle
  · exact quiet_after_follow hok hreserved hfollows

end SecondPass

/-- After a pass that installed the route a second one does nothing. -/
theorem second_pass_quiet_eth0 :
    Quiet twoLinks (eth0.reconcile twoLinks leased).2.1 (eth0.reconcile twoLinks leased).2.2 := by
  have hrun : Run (HostTurn defaults) ⟨OrderedDict.empty, leased⟩
      [.refresh ["eth0".toList, "eth1".toList]] found := Run.single rfl
  have hreserved : MetricReserved (eth0.resolveIndex twoLinks) leased.tables := by
    unfold MetricReserved
    decide
  have hget : found.ifaces.get "eth0".toList = some eth0 := by decide
  exact second_pass_quiet hrun hget (fun _ _ _ => rfl) hreserved

end V4WithV6Nh.HostDaemon
