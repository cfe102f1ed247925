import V4WithV6Nh.RouterSelection

/-!
# The IPv6-Resolved Gateway in `systemd-networkd`

The networkd patch gives the DHCPv4 client of a link an IPv4 default route through the
best IPv6 default router of the link, and evaluates it again whenever the default router
list changes. This module is what the patch adds to `networkd-dhcp4.c`, function by
function.

The rest of networkd is not part of the repository. What the patch uses of it is a
`System`: the route that `route_new` returns, what `dhcp4_request_route` fills in, and
what `dhcp4_request_route` and `route_remove_and_cancel` do to the routes of the manager,
with what the patch relies on as fields. Each call that can fail has its error in
`Calls`; a call that fails changes nothing.

`manager->routes` and `ndisc_routers_by_sender` are lists in the order in which the
iteration visits them. Log lines are left out.
-/

namespace V4WithV6Nh.Networkd

/-- `ENOMEM`. -/
def ENOMEM : ℕ := 12

/-- `NetworkConfigSource`, as far as the patch distinguishes it. -/
inductive Source
  | dhcp4
  | other
deriving DecidableEq

/-- An address family. -/
inductive Family
  | unspec
  | inet
  | inet6
deriving DecidableEq

/-- `SD_NDISC_PREFERENCE_*`; `reserved` is every other value. -/
inductive Preference
  | high
  | medium
  | low
  | reserved
deriving DecidableEq

/-- `RouteNextHop`, with the IPv6 view of the address. -/
structure NextHop where
  ifindex : ℕ
  family : Family
  gw6 : IPv6
deriving DecidableEq

/-- A `Route`. `other` is everything the patch does not look at. -/
structure Route (ρ : Type) where
  source : Source
  family : Family
  dstPrefixlen : ℕ
  nexthop : NextHop
  prefsrc : BitVec 32
  other : ρ
deriving DecidableEq

/-- A received RA; `none` if `sd_ndisc_router_get_preference` fails. -/
structure Router where
  preference : Option Preference

/-- The DHCPv4 lease of a link. -/
structure Lease where
  /-- What `dhcp4_get_router` finds. -/
  router : Option (BitVec 32)
  /-- What `sd_dhcp_lease_get_address` returns. -/
  address : Except ℕ (BitVec 32)
  /-- What `dhcp4_has_classless_static_or_static_routes` returns. -/
  classlessRoutes : Bool

/-- The settings the patch reads. -/
structure Network where
  dhcpUseGateway : Bool
  dhcpUseIpv6ResolvedGateway : Bool
  dhcpUseRoutes : Bool

/-- A link. -/
structure Link where
  ifindex : ℕ
  dhcpLease : Option Lease
  network : Option Network
  ndiscRoutersBySender : List (IPv6 × Router)

/-- The parts of networkd that the patch uses, and what it relies on. -/
structure System (ρ : Type) where
  /-- The route that `route_new` returns. -/
  routeNew : Route ρ
  /-- The route that `dhcp4_request_route` makes of its argument. -/
  complete : Link → Route ρ → Route ρ
  /-- The routes of the manager after `dhcp4_request_route`. -/
  requestRoute : Link → Route ρ → List (Route ρ) → List (Route ρ)
  /-- The routes of the manager after `route_remove_and_cancel`. -/
  routeRemoveAndCancel : Route ρ → List (Route ρ) → List (Route ρ)
  kernelSupportsIpv4ViaIpv6 : Bool
  /-- `route_new` returns a default route. -/
  routeNew_dstPrefixlen : routeNew.dstPrefixlen = 0
  /-- `dhcp4_request_route` makes its argument a DHCPv4 route of the link and keeps its
  destination and its next hop. -/
  complete_spec : ∀ link r, (complete link r).source = .dhcp4 ∧
    (complete link r).family = .inet ∧ (complete link r).dstPrefixlen = r.dstPrefixlen ∧
    (complete link r).nexthop = { r.nexthop with ifindex := link.ifindex }
  /-- `dhcp4_request_route` does not look at the router list. -/
  complete_routers : ∀ link routers r,
    complete { link with ndiscRoutersBySender := routers } r = complete link r
  /-- `dhcp4_request_route` adds the route, and nothing if an equal one is there. -/
  mem_requestRoute : ∀ link r routes x,
    x ∈ requestRoute link r routes ↔ x = complete link r ∨ x ∈ routes
  /-- `route_remove_and_cancel` removes its argument and nothing else. -/
  mem_routeRemoveAndCancel : ∀ r routes x,
    x ∈ routeRemoveAndCancel r routes ↔ x ∈ routes ∧ x ≠ r

/-- Which calls of one evaluation fail, and with what error. -/
structure Calls where
  /-- `GREEDY_REALLOC` for one more than `n` stale routes. -/
  greedyRealloc : ℕ → Bool
  routeNew : Option ℕ
  requestRoute : Option ℕ

/-- No call fails. -/
def Calls.succeed : Calls := ⟨fun _ => false, none, none⟩

/-! ### Selection -/

/-- `DHCP4_GATEWAY_IPV6_RESOLVED`. -/
def DHCP4_GATEWAY_IPV6_RESOLVED : BitVec 32 := 0xc000000b#32

/-- `dhcp4_router_is_ipv6_resolved`. -/
def dhcp4RouterIsIpv6Resolved (router : BitVec 32) : Bool :=
  router == DHCP4_GATEWAY_IPV6_RESOLVED

/-- `ndisc_preference_rank`. -/
def ndiscPreferenceRank : Preference → ℤ
  | .high => 2
  | .medium => 1
  | .low => 0
  | .reserved => -1

/-- `dhcp4_select_ndisc_router`; `none` is `-ENODATA`. -/
def dhcp4SelectNdiscRouter (link : Link) : Option IPv6 :=
  let best : ℤ × IPv6 := link.ndiscRoutersBySender.foldl
    (fun best e =>
      let pref := e.2.preference.getD .medium
      let rank := ndiscPreferenceRank pref
      if rank < best.1 then best
      else if rank = best.1 ∧ best.2 ≤ e.1 then best
      else (rank, e.1))
    (-1, 0)
  if best.1 < 0 then none else some best.2

/-! ### The default route -/

section Gateway

variable {ρ : Type}

/-- The routes that `dhcp4_request_ipv6_resolved_gateway` collects as stale, for the
selected router `gw`. -/
def isStale (link : Link) (gw : IPv6) (existing : Route ρ) : Bool :=
  if existing.source ≠ .dhcp4 then false
  else if existing.nexthop.ifindex ≠ link.ifindex then false
  else if existing.family ≠ .inet ∨ existing.dstPrefixlen ≠ 0 then false
  else if existing.nexthop.family ≠ .inet6 then false
  else if existing.nexthop.gw6 = gw then false
  else true

/-- The loop that collects the stale routes, after `n` of them; `none` if an allocation
fails. -/
def collectStale (calls : Calls) (link : Link) (gw : IPv6) :
    List (Route ρ) → ℕ → Option (List (Route ρ))
  | [], _ => some []
  | existing :: rest, n =>
      if isStale link gw existing then
        if calls.greedyRealloc n then none
        else (collectStale calls link gw rest (n + 1)).map (existing :: ·)
      else collectStale calls link gw rest n

/-- The route requested for the selected router. -/
def resolvedRoute (S : System ρ) (gw : IPv6) (address : BitVec 32) : Route ρ :=
  { S.routeNew with
    nexthop := { S.routeNew.nexthop with family := .inet6, gw6 := gw }
    prefsrc := address }

/-- `dhcp4_request_ipv6_resolved_gateway`: its result, and the routes of the manager. -/
def dhcp4RequestIpv6ResolvedGateway (S : System ρ) (calls : Calls) (link : Link)
    (lease : Lease) (routes : List (Route ρ)) : Except ℕ Unit × List (Route ρ) :=
  if ¬ S.kernelSupportsIpv4ViaIpv6 then (.ok (), routes)
  else
    match dhcp4SelectNdiscRouter link with
    | none => (.ok (), routes)
    | some gw =>
        match lease.address with
        | .error e => (.error e, routes)
        | .ok address =>
            match collectStale calls link gw routes 0 with
            | none => (.error ENOMEM, routes)
            | some stale =>
                let routes := stale.foldl (fun routes rt => S.routeRemoveAndCancel rt routes)
                  routes
                match calls.routeNew with
                | some e => (.error e, routes)
                | none =>
                    match calls.requestRoute with
                    | some e => (.error e, routes)
                    | none =>
                        (.ok (), S.requestRoute link (resolvedRoute S gw address) routes)

/-- `dhcp4_ipv6_resolved_gateway_update`. -/
def dhcp4Ipv6ResolvedGatewayUpdate (S : System ρ) (calls : Calls) (link : Link)
    (routes : List (Route ρ)) : Except ℕ Unit × List (Route ρ) :=
  match link.dhcpLease with
  | none => (.ok (), routes)
  | some lease =>
      match link.network with
      | none => (.ok (), routes)
      | some network =>
          if ¬ network.dhcpUseGateway then (.ok (), routes)
          else if ¬ network.dhcpUseIpv6ResolvedGateway then (.ok (), routes)
          else if network.dhcpUseRoutes ∧ lease.classlessRoutes then (.ok (), routes)
          else
            match lease.router with
            | none => (.ok (), routes)
            | some router =>
                if ¬ dhcp4RouterIsIpv6Resolved router then (.ok (), routes)
                else dhcp4RequestIpv6ResolvedGateway S calls link lease routes

end Gateway

/-! ### What the selection finds -/

/-- The routers of a link with their ranks; a router without a preference is medium. -/
def candidates (link : Link) : List (IPv6 × ℤ) :=
  link.ndiscRoutersBySender.map fun e =>
    (e.1, ndiscPreferenceRank (e.2.preference.getD .medium))

/-- A router of the link has a preference that is not reserved. -/
def Usable (link : Link) : Prop := ∃ e ∈ candidates link, 0 ≤ e.2

/-- The selection is the loop of `keepBest`. -/
theorem dhcp4SelectNdiscRouter_eq (link : Link) :
    dhcp4SelectNdiscRouter link =
      if ((candidates link).foldl keepBest (-1, 0)).1 < 0 then none
      else some ((candidates link).foldl keepBest (-1, 0)).2 := by
  rw [candidates, List.foldl_map]
  rfl

/-- No router is selected exactly when none has a preference that is not reserved. -/
theorem dhcp4SelectNdiscRouter_eq_none_iff {link : Link} :
    dhcp4SelectNdiscRouter link = none ↔ ¬ Usable link := by
  have hnone : (∀ e ∈ candidates link, e.2 < 0) ↔ ¬ Usable link := by
    constructor
    · rintro h ⟨e, he, hpos⟩
      have := h e he
      omega
    · intro h e he
      by_contra hpos
      exact h ⟨e, he, by omega⟩
  rw [← hnone, ← foldl_keepBest_lt_iff, dhcp4SelectNdiscRouter_eq]
  split
  · rename_i hlt
    exact iff_of_true rfl hlt
  · rename_i hlt
    exact iff_of_false (Option.some_ne_none _) hlt

/-- **The selected router is the best one**, in whatever order the list is visited. -/
theorem isBest_of_dhcp4SelectNdiscRouter {link : Link} {gw : IPv6}
    (h : dhcp4SelectNdiscRouter link = some gw) : IsBest (candidates link) gw := by
  rw [dhcp4SelectNdiscRouter_eq] at h
  split at h
  · cases h
  · rename_i hlt
    obtain rfl := Option.some.inj h
    exact isBest_of_foldl_keepBest hlt

end V4WithV6Nh.Networkd
