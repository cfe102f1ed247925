import V4WithV6Nh.FreebsdDaemon
import V4WithV6Nh.MacosDaemon

/-!
# Default Routes in the BSD Table Scans

A default route is one whose netmask has no bits. The scans for default routes do not look
at the netmask: they take a gateway route for a default route if its destination address is
zero, which is also the address of the half-routes `::/1` and `0.0.0.0/1`. The specification
here reads the prefix length from the netmask.

## Main results

* `findDefaultRouter_eq_iff`, `staticDefaultRouter_eq_iff`: a scan finds the gateway of the
  first default route exactly when the first route to the zero address is one, or has the
  same gateway as the first one.
* `scans_iff_defaultFirst`: the three scans of the two daemons.
-/

namespace V4WithV6Nh

/-! ### Prefix lengths -/

/-- The netmask of a prefix length. -/
def prefixMask (width n : ℕ) : BitVec width := BitVec.allOnes width <<< (width - n)

/-- The prefix length that a netmask spells. -/
def maskLength {width : ℕ} (mask : BitVec width) : Option ℕ :=
  (List.range (width + 1)).find? fun n => mask = prefixMask width n

/-- The prefix length of an IPv6 route. A host route is shown without a netmask, and a
default route can have an empty one, whose family is not set. -/
def RtMsg.prefixLength6 (m : RtMsg) : Option ℕ :=
  match m.netmask with
  | none => some 128
  | some (.inet6 mask) => maskLength mask
  | some (.other 0) => some 0
  | some _ => none

/-- The prefix length of an IPv4 route. -/
def RtMsg.prefixLength4 (m : RtMsg) : Option ℕ :=
  match m.netmask with
  | none => some 32
  | some (.inet mask) => maskLength mask
  | some (.other 0) => some 0
  | some _ => none

/-- A message of an IPv6 dump: an IPv6 destination without bits outside its netmask. -/
def RtMsg.WellFormed6 (m : RtMsg) : Prop :=
  m.rtmVersion = RTM_VERSION ∧ ∃ n dst, m.prefixLength6 = some n ∧ m.dst = some (.inet6 dst) ∧
    dst &&& ~~~prefixMask 128 n = 0

/-- A message of an IPv4 dump. -/
def RtMsg.WellFormed4 (m : RtMsg) : Prop :=
  m.rtmVersion = RTM_VERSION ∧ ∃ n dst, m.prefixLength4 = some n ∧ m.dst = some (.inet dst) ∧
    dst &&& ~~~prefixMask 32 n = 0

/-- A destination of prefix length 0 is the zero address. -/
theorem eq_zero_of_prefixMask_zero {width : ℕ} {dst : BitVec width}
    (h : dst &&& ~~~prefixMask width 0 = 0) : dst = 0 := by
  have hmask : prefixMask width 0 = 0 := by
    rw [prefixMask, Nat.sub_zero]
    exact BitVec.shiftLeft_eq_zero (Nat.le_refl width)
  rw [hmask] at h
  simpa using h

/-! ### IPv6 default routes -/

/-- The gateway of an IPv6 route on the interface with these flags, without its scope. -/
def RtMsg.gateway6 (flags : BitVec 32) (ifindex : ℕ) (m : RtMsg) : Option IPv6 :=
  if m.rtmFlags &&& flags = flags ∧ m.rtmIndex = ifindex then
    match m.gateway with
    | some (.inet6 gw) => some (stripEmbeddedScope gw)
    | _ => none
  else none

/-- The gateway, if the route is a default route. -/
def RtMsg.defaultGateway6 (flags : BitVec 32) (ifindex : ℕ) (m : RtMsg) : Option IPv6 :=
  if m.prefixLength6 = some 0 then m.gateway6 flags ifindex else none

/-- The gateway, if the destination is the zero address. -/
def RtMsg.zeroGateway6 (flags : BitVec 32) (ifindex : ℕ) (m : RtMsg) : Option IPv6 :=
  if m.dst = some (.inet6 0) then m.gateway6 flags ifindex else none

/-- The gateway of the first default route of a dump. -/
def firstDefaultGateway6 (flags : BitVec 32) (ifindex : ℕ) (routes6 : List RtMsg) :
    Option IPv6 :=
  routes6.findSome? (RtMsg.defaultGateway6 flags ifindex)

/-- The first route to the zero address is a default route, or it has the gateway of the
first default route. -/
def DefaultFirst6 (flags : BitVec 32) (ifindex : ℕ) (routes6 : List RtMsg) : Prop :=
  ∀ m gw, routes6.find? (fun m => (m.zeroGateway6 flags ifindex).isSome) = some m →
    m.gateway6 flags ifindex = some gw →
    m.prefixLength6 = some 0 ∨ firstDefaultGateway6 flags ifindex routes6 = some gw

section Ipv6

variable {flags : BitVec 32} {ifindex : ℕ} {routes6 : List RtMsg} {m : RtMsg} {gw : IPv6}

/-- A default route is a route to the zero address. -/
theorem zeroGateway6_of_defaultGateway6 (hm : m.WellFormed6)
    (h : m.defaultGateway6 flags ifindex = some gw) :
    m.zeroGateway6 flags ifindex = some gw := by
  obtain ⟨-, n, dst, hn, hdst, hbits⟩ := hm
  rw [RtMsg.defaultGateway6, Option.ite_none_right_eq_some] at h
  obtain ⟨hzero, hgw⟩ := h
  obtain rfl : n = 0 := Option.some.inj (hn.symm.trans hzero)
  rw [RtMsg.zeroGateway6, hdst, eq_zero_of_prefixMask_zero hbits, if_pos rfl, hgw]

/-- **What a scan for the zero address finds**, against the first default route. -/
theorem scan6_eq_iff {scan : RtMsg → Option IPv6} (hdump : ∀ m ∈ routes6, m.WellFormed6)
    (hscan : ∀ m ∈ routes6, scan m = m.zeroGateway6 flags ifindex) :
    routes6.findSome? scan = firstDefaultGateway6 flags ifindex routes6 ↔
      DefaultFirst6 flags ifindex routes6 := by
  rw [← List.head?_filterMap, List.filterMap_congr hscan, List.head?_filterMap,
    firstDefaultGateway6, findSome?_eq_findSome?_iff fun m hm gw =>
    zeroGateway6_of_defaultGateway6 (hdump m hm), DefaultFirst6]
  refine forall_congr' fun m => forall_congr' fun gw => forall_congr' fun hfirst => ?_
  have hzero : m.dst = some (.inet6 0) := by
    have hsome := List.find?_some hfirst
    obtain ⟨g, hg⟩ := Option.isSome_iff_exists.mp hsome
    rw [RtMsg.zeroGateway6, Option.ite_none_right_eq_some] at hg
    exact hg.1
  rw [RtMsg.zeroGateway6, if_pos hzero]
  refine forall_congr' fun hgw => or_congr_left ?_
  rw [RtMsg.defaultGateway6, Option.ite_none_right_eq_some]
  exact and_iff_left hgw

end Ipv6

/-! ### The scans -/

namespace MacosDaemon

variable {ifindex : ℕ} {routes6 : List RtMsg} {m : RtMsg}

/-- `find_default_router` stops at a route to the zero address. -/
theorem defaultRouterOf_eq (hm : m.WellFormed6) :
    defaultRouterOf ifindex m = m.zeroGateway6 (RTF_GATEWAY ||| RTF_UP) ifindex := by
  obtain ⟨hversion, -, dst, -, hdst, -⟩ := hm
  by_cases hflags : m.rtmFlags &&& (RTF_GATEWAY ||| RTF_UP) = RTF_GATEWAY ||| RTF_UP
  · by_cases hindex : m.rtmIndex = ifindex
    · simp only [defaultRouterOf, RtMsg.zeroGateway6, RtMsg.gateway6, hversion, hflags, hindex,
        hdst]
      rcases m.gateway with _ | (a | a | a | a) <;> by_cases hzero : dst = 0 <;> simp [hzero]
    · simp [defaultRouterOf, RtMsg.zeroGateway6, RtMsg.gateway6, hversion, hflags, hindex]
  · simp [defaultRouterOf, RtMsg.zeroGateway6, RtMsg.gateway6, hversion, hflags]

/-- **Exactly when `find_default_router` finds the first default route.** -/
theorem findDefaultRouter_eq_iff (hdump : ∀ m ∈ routes6, m.WellFormed6) :
    findDefaultRouter ifindex routes6 =
        firstDefaultGateway6 (RTF_GATEWAY ||| RTF_UP) ifindex routes6 ↔
      DefaultFirst6 (RTF_GATEWAY ||| RTF_UP) ifindex routes6 :=
  scan6_eq_iff hdump fun m hm => defaultRouterOf_eq (hdump m hm)

end MacosDaemon

namespace FreebsdDaemon

variable {ifindex : ℕ} {routes6 : List RtMsg} {m : RtMsg}

/-- `static_default_router` stops at a static route to the zero address, up or not. -/
theorem staticRouterOf_eq (hm : m.WellFormed6) :
    staticRouterOf ifindex m = m.zeroGateway6 (RTF_GATEWAY ||| RTF_STATIC) ifindex := by
  obtain ⟨hversion, -, dst, -, hdst, -⟩ := hm
  by_cases hflags : m.rtmFlags &&& (RTF_GATEWAY ||| RTF_STATIC) = RTF_GATEWAY ||| RTF_STATIC
  · by_cases hindex : m.rtmIndex = ifindex
    · simp only [staticRouterOf, RtMsg.zeroGateway6, RtMsg.gateway6, hversion, hflags, hindex, hdst]
      rcases m.gateway with _ | (a | a | a | a) <;> by_cases hzero : dst = 0 <;> simp [hzero]
    · simp [staticRouterOf, RtMsg.zeroGateway6, RtMsg.gateway6, hversion, hflags, hindex]
  · simp [staticRouterOf, RtMsg.zeroGateway6, RtMsg.gateway6, hversion, hflags]

/-- **Exactly when `static_default_router` finds the first static default route.** -/
theorem staticDefaultRouter_eq_iff (hdump : ∀ m ∈ routes6, m.WellFormed6) :
    staticDefaultRouter ifindex routes6 =
        firstDefaultGateway6 (RTF_GATEWAY ||| RTF_STATIC) ifindex routes6 ↔
      DefaultFirst6 (RTF_GATEWAY ||| RTF_STATIC) ifindex routes6 :=
  scan6_eq_iff hdump fun m hm => staticRouterOf_eq (hdump m hm)

end FreebsdDaemon

/-! ### The sentinel's default route -/

/-- A gateway route via the address. -/
def RtMsg.IsVia4 (gateway : InAddr) (m : RtMsg) : Prop :=
  m.rtmFlags &&& RTF_GATEWAY ≠ 0 ∧ m.gateway = some (.inet gateway)

/-- The FIB has a default route via the address. -/
def HasDefaultVia4 (gateway : InAddr) (routes4 : List RtMsg) : Prop :=
  ∃ m ∈ routes4, m.IsVia4 gateway ∧ m.prefixLength4 = some 0

/-- A longer route to the zero address via the gateway is not without a default route. -/
def DefaultBeside4 (gateway : InAddr) (routes4 : List RtMsg) : Prop :=
  ∀ m ∈ routes4, m.IsVia4 gateway → m.dst = some (.inet 0) → m.prefixLength4 ≠ some 0 →
    HasDefaultVia4 gateway routes4

/-- `sentinel_in_fib` stops at a route to the zero address via the sentinel. -/
theorem MacosDaemon.isSentinelRoute_iff {sentinelAddr : InAddr} {m : RtMsg}
    (hm : m.WellFormed4) :
    isSentinelRoute sentinelAddr m = true ↔ m.IsVia4 sentinelAddr ∧ m.dst = some (.inet 0) := by
  obtain ⟨hversion, -, dst, -, hdst, -⟩ := hm
  rw [RtMsg.IsVia4, hdst]
  by_cases hgateway : m.rtmFlags &&& RTF_GATEWAY = 0
  · simp [isSentinelRoute, hversion, hgateway]
  · simp only [isSentinelRoute, hversion, hgateway, hdst, ne_eq, not_false_eq_true, true_and]
    rcases m.gateway with _ | (a | a | a | a) <;> simp [and_comm]

/-- **Exactly when `sentinel_in_fib` tells whether there is a default route via the
sentinel.** -/
theorem MacosDaemon.sentinelInFib_iff_iff {sentinelAddr : InAddr} {routes4 : List RtMsg}
    (hdump : ∀ m ∈ routes4, m.WellFormed4) :
    (sentinelInFib sentinelAddr routes4 = true ↔ HasDefaultVia4 sentinelAddr routes4) ↔
      DefaultBeside4 sentinelAddr routes4 := by
  have hfound : sentinelInFib sentinelAddr routes4 = true ↔
      ∃ m ∈ routes4, m.IsVia4 sentinelAddr ∧ m.dst = some (.inet 0) := by
    rw [sentinelInFib, List.any_eq_true]
    exact exists_congr fun m => and_congr_right fun hm => isSentinelRoute_iff (hdump m hm)
  rw [hfound]
  constructor
  · exact fun h m hm hvia hdst _ => h.mp ⟨m, hm, hvia, hdst⟩
  · intro h
    constructor
    · rintro ⟨m, hm, hvia, hdst⟩
      by_cases hzero : m.prefixLength4 = some 0
      · exact ⟨m, hm, hvia, hzero⟩
      · exact h m hm hvia hdst hzero
    · rintro ⟨m, hm, hvia, hzero⟩
      obtain ⟨-, n, dst, hn, hdst, hbits⟩ := hdump m hm
      obtain rfl : n = 0 := Option.some.inj (hn.symm.trans hzero)
      rw [eq_zero_of_prefixMask_zero hbits] at hdst
      exact ⟨m, hm, hvia, hdst⟩

/-- **The scans and the default routes**: for every well-formed dump, interface and
sentinel, `find_default_router`, `static_default_router` and `sentinel_in_fib` accept
exactly default routes when no half-route stands in for one. -/
theorem scans_iff_defaultFirst {routes6 routes4 : List RtMsg}
    (hdump6 : ∀ m ∈ routes6, m.WellFormed6) (hdump4 : ∀ m ∈ routes4, m.WellFormed4)
    (ifindex : ℕ) (sentinelAddr : InAddr) :
    (MacosDaemon.findDefaultRouter ifindex routes6 =
        firstDefaultGateway6 (RTF_GATEWAY ||| RTF_UP) ifindex routes6 ↔
      DefaultFirst6 (RTF_GATEWAY ||| RTF_UP) ifindex routes6) ∧
    (FreebsdDaemon.staticDefaultRouter ifindex routes6 =
        firstDefaultGateway6 (RTF_GATEWAY ||| RTF_STATIC) ifindex routes6 ↔
      DefaultFirst6 (RTF_GATEWAY ||| RTF_STATIC) ifindex routes6) ∧
    ((MacosDaemon.sentinelInFib sentinelAddr routes4 = true ↔
        HasDefaultVia4 sentinelAddr routes4) ↔ DefaultBeside4 sentinelAddr routes4) :=
  ⟨MacosDaemon.findDefaultRouter_eq_iff hdump6, FreebsdDaemon.staticDefaultRouter_eq_iff hdump6,
    MacosDaemon.sentinelInFib_iff_iff hdump4⟩

/-! ### Half-routes -/

/-- A gateway route to the zero address on the interface 2. -/
def route6 (mask gw : IPv6) : RtMsg where
  rtmVersion := RTM_VERSION
  rtmFlags := RTF_UP ||| RTF_GATEWAY ||| RTF_STATIC
  rtmIndex := 2
  dst := some (.inet6 0)
  gateway := some (.inet6 gw)
  netmask := some (.inet6 mask)

/-- The same for IPv4. -/
def route4 (mask gw : InAddr) : RtMsg where
  rtmVersion := RTM_VERSION
  rtmFlags := RTF_UP ||| RTF_GATEWAY ||| RTF_STATIC
  rtmIndex := 2
  dst := some (.inet 0)
  gateway := some (.inet gw)
  netmask := some (.inet mask)

/-- The address of a VPN's half-route, and one of a default route. -/
def vpn : IPv6 := 0xfd000000000000000000000000000001#128

def lan : IPv6 := 0xfe800000000000000000000000000001#128

/-- The netmask of a half-route. -/
def half (width : ℕ) : BitVec width := prefixMask width 1

theorem wellFormed6_route6 {mask gw : IPv6} {n : ℕ} (hn : maskLength mask = some n) :
    (route6 mask gw).WellFormed6 :=
  ⟨rfl, n, 0, hn, rfl, BitVec.zero_and⟩

theorem wellFormed4_route4 {mask gw : InAddr} {n : ℕ} (hn : maskLength mask = some n) :
    (route4 mask gw).WellFormed4 :=
  ⟨rfl, n, 0, hn, rfl, BitVec.zero_and⟩

theorem maskLength_zero6 : maskLength (0 : IPv6) = some 0 := by decide

theorem maskLength_half6 : maskLength (half 128) = some 1 := by decide

theorem maskLength_half4 : maskLength (half 32) = some 1 := by decide

/-- A half-route of a VPN on another interface, one through the default router, the default route,
and another half-route of the VPN. -/
def mixed6 : List RtMsg :=
  [{ route6 (half 128) vpn with rtmIndex := 5 }, route6 (half 128) lan, route6 0 lan,
    route6 (half 128) vpn]

/-- A half-route and a default route through the sentinel. -/
def mixed4 : List RtMsg :=
  [route4 (half 32) FreebsdDaemon.SENTINEL_ADDR, route4 0 FreebsdDaemon.SENTINEL_ADDR]

/-- Half-routes that do not stand in for a default route do no harm. -/
theorem scans_mixed :
    MacosDaemon.findDefaultRouter 2 mixed6 =
      firstDefaultGateway6 (RTF_GATEWAY ||| RTF_UP) 2 mixed6 ∧
    FreebsdDaemon.staticDefaultRouter 2 mixed6 =
      firstDefaultGateway6 (RTF_GATEWAY ||| RTF_STATIC) 2 mixed6 ∧
    (MacosDaemon.sentinelInFib FreebsdDaemon.SENTINEL_ADDR mixed4 = true ↔
      HasDefaultVia4 FreebsdDaemon.SENTINEL_ADDR mixed4) := by
  have hdump6 : ∀ m ∈ mixed6, m.WellFormed6 := by
    simp only [mixed6, List.forall_mem_cons]
    exact ⟨⟨rfl, 1, 0, maskLength_half6, rfl, BitVec.zero_and⟩, wellFormed6_route6 maskLength_half6,
      wellFormed6_route6 maskLength_zero6, wellFormed6_route6 maskLength_half6, nofun⟩
  have hdump4 : ∀ m ∈ mixed4, m.WellFormed4 := by
    simp only [mixed4, List.forall_mem_cons]
    exact ⟨wellFormed4_route4 maskLength_half4, wellFormed4_route4 (n := 0) (by decide), nofun⟩
  -- the first route to the zero address has the gateway of the default route
  have hfirst : ∀ flags, firstDefaultGateway6 flags 2 mixed6 = some lan →
      mixed6.find? (fun m => (m.zeroGateway6 flags 2).isSome) = some (route6 (half 128) lan) →
      (route6 (half 128) lan).gateway6 flags 2 = some lan → DefaultFirst6 flags 2 mixed6 := by
    intro flags hdefault hfind hlan m gw hm hgw
    obtain rfl := Option.some.inj (hfind.symm.trans hm)
    exact .inr (hdefault.trans (hlan.symm.trans hgw))
  obtain ⟨hfind, hstatic, hfib⟩ :=
    scans_iff_defaultFirst hdump6 hdump4 2 FreebsdDaemon.SENTINEL_ADDR
  refine ⟨hfind.mpr (hfirst _ (by decide) (by decide) (by decide)),
    hstatic.mpr (hfirst _ (by decide) (by decide) (by decide)), hfib.mpr fun _ _ _ _ _ => ?_⟩
  exact ⟨route4 0 FreebsdDaemon.SENTINEL_ADDR, List.mem_cons_of_mem _ List.mem_cons_self,
    ⟨by decide, rfl⟩, by decide⟩

/-- **A half-route is taken for a default route**: over a dump of half-routes alone all three
scans find a default route, and before a default route they find the gateway of the
half-route. -/
theorem half_route_accepted :
    (∀ m ∈ [route6 (half 128) vpn, route6 0 lan], m.WellFormed6) ∧
    (route4 (half 32) FreebsdDaemon.SENTINEL_ADDR).WellFormed4 ∧
    firstDefaultGateway6 (RTF_GATEWAY ||| RTF_UP) 2 [route6 (half 128) vpn, route6 0 lan] =
      some lan ∧
    MacosDaemon.findDefaultRouter 2 [route6 (half 128) vpn, route6 0 lan] = some vpn ∧
    firstDefaultGateway6 (RTF_GATEWAY ||| RTF_STATIC) 2 [route6 (half 128) vpn] = none ∧
    FreebsdDaemon.staticDefaultRouter 2 [route6 (half 128) vpn] = some vpn ∧
    ¬ HasDefaultVia4 FreebsdDaemon.SENTINEL_ADDR
      [route4 (half 32) FreebsdDaemon.SENTINEL_ADDR] ∧
    MacosDaemon.sentinelInFib FreebsdDaemon.SENTINEL_ADDR
      [route4 (half 32) FreebsdDaemon.SENTINEL_ADDR] = true := by
  refine ⟨?_, wellFormed4_route4 maskLength_half4, by decide, by decide, by decide, by decide,
    ?_, by decide⟩
  · intro m hm
    rcases List.mem_cons.mp hm with rfl | hm
    · exact wellFormed6_route6 maskLength_half6
    · obtain rfl := List.mem_singleton.mp hm
      exact wellFormed6_route6 maskLength_zero6
  · rintro ⟨m, hm, -, hzero⟩
    obtain rfl := List.mem_singleton.mp hm
    cases hzero.symm.trans maskLength_half4

end V4WithV6Nh
