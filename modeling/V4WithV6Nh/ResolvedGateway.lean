import V4WithV6Nh.Networkd
import V4WithV6Nh.Run

/-!
# The Resolved Default Route of a networkd Link

What `dhcp4_ipv6_resolved_gateway_update` is for is one DHCPv4 default route through the
best IPv6 default router of the link (`IsResolvedDefault`). While there is a router, it
keeps exactly that route, over any history of the router list. When the last router is
gone it returns before the sweep, and the route through the lost router stays.

## Main results

* `update_of_select`: the routes after an evaluation that selects a router.
* `unique_resolved_default`: after every evaluation that finds a router, the link has one
  resolved default route, through the best router, and all other routes are untouched.
* `noDefault_update_iff`: an evaluation that finds no router leaves no resolved default
  route exactly when there was none, which is when no earlier evaluation found a router.
-/

namespace V4WithV6Nh.Networkd

section Evaluation

variable {ρ : Type} {S : System ρ} {calls : Calls} {link : Link}
  {lease : Lease} {address : BitVec 32} {gw : IPv6} {routes : List (Route ρ)}

/-- A DHCPv4-sourced IPv4 default route of the link with an IPv6 next hop. -/
def IsResolvedDefault (link : Link) (x : Route ρ) : Prop :=
  x.source = .dhcp4 ∧ x.nexthop.ifindex = link.ifindex ∧ x.family = .inet ∧
    x.dstPrefixlen = 0 ∧ x.nexthop.family = .inet6

/-- The lease of the link designates 192.0.0.11 as its router, and the patch applies. -/
def Designates (S : System ρ) (link : Link) (lease : Lease) : Prop :=
  S.kernelSupportsIpv4ViaIpv6 = true ∧ link.dhcpLease = some lease ∧
    lease.router = some DHCP4_GATEWAY_IPV6_RESOLVED ∧
    ∃ network, link.network = some network ∧ network.dhcpUseGateway = true ∧
      network.dhcpUseIpv6ResolvedGateway = true ∧
      ¬ (network.dhcpUseRoutes = true ∧ lease.classlessRoutes = true)

/-- The link with another router list. -/
def Link.withRouters (link : Link) (routers : List (IPv6 × Router)) : Link :=
  { link with ndiscRoutersBySender := routers }

/-- The route that an evaluation requests for `gw`. -/
def leaseRoute (S : System ρ) (link : Link) (gw : IPv6) (address : BitVec 32) : Route ρ :=
  S.complete link (resolvedRoute S gw address)

/-- The stale routes are the resolved default routes through another router. -/
theorem isStale_iff {x : Route ρ} :
    isStale link gw x = true ↔ IsResolvedDefault link x ∧ x.nexthop.gw6 ≠ gw := by
  simp only [isStale, IsResolvedDefault]
  split_ifs with h₁ h₂ h₃ h₄ h₅
  · exact iff_of_false not_false fun h => h₁ h.1.1
  · exact iff_of_false not_false fun h => h₂ h.1.2.1
  · exact iff_of_false not_false fun h =>
      h₃.elim (fun hf => hf h.1.2.2.1) fun hd => hd h.1.2.2.2.1
  · exact iff_of_false not_false fun h => h₄ h.1.2.2.2.2
  · exact iff_of_false not_false fun h => h.2 h₅
  · obtain ⟨hf, hd⟩ := not_or.mp h₃
    exact iff_of_true rfl ⟨⟨not_not.mp h₁, not_not.mp h₂, not_not.mp hf, not_not.mp hd,
      not_not.mp h₄⟩, h₅⟩

/-- Without a failing allocation the loop collects exactly the stale routes. -/
theorem collectStale_of_succeed (routes : List (Route ρ))
    (hcalls : ∀ n, calls.greedyRealloc n = false) (n : ℕ) :
    collectStale calls link gw routes n = some (routes.filter (isStale link gw)) := by
  induction routes generalizing n with
  | nil => rfl
  | cons x xs ih =>
      rw [collectStale, List.filter_cons]
      by_cases hx : isStale link gw x = true
      · rw [if_pos hx, if_pos hx, hcalls n, ih]
        rfl
      · rw [if_neg hx, if_neg hx, ih]

/-- Removing a list of routes one by one. -/
theorem mem_foldl_remove {stale : List (Route ρ)} {x : Route ρ} :
    x ∈ stale.foldl (fun routes rt => S.routeRemoveAndCancel rt routes) routes ↔
      x ∈ routes ∧ x ∉ stale := by
  induction stale generalizing routes with
  | nil => simp
  | cons y ys ih =>
      rw [List.foldl_cons, ih, S.mem_routeRemoveAndCancel, List.mem_cons, not_or, and_assoc]

/-- The update of a designated link is the request. -/
theorem update_of_designates (hdes : Designates S link lease) :
    dhcp4Ipv6ResolvedGatewayUpdate S calls link routes =
      dhcp4RequestIpv6ResolvedGateway S calls link lease routes := by
  obtain ⟨-, hlease, hrouter, network, hnetwork, hgateway, hresolved, hclassless⟩ := hdes
  have hsentinel : dhcp4RouterIsIpv6Resolved DHCP4_GATEWAY_IPV6_RESOLVED = true := by decide
  simp only [dhcp4Ipv6ResolvedGatewayUpdate, hlease, hnetwork, hgateway, hresolved,
    not_true_eq_false, if_false, if_neg hclassless, hrouter, hsentinel]

/-- An evaluation that finds no router changes nothing. -/
theorem update_of_not_usable (hdes : Designates S link lease) (hnone : ¬ Usable link) :
    dhcp4Ipv6ResolvedGatewayUpdate S calls link routes = (.ok (), routes) := by
  rw [update_of_designates hdes, dhcp4RequestIpv6ResolvedGateway,
    dhcp4SelectNdiscRouter_eq_none_iff.mpr hnone]
  split <;> rfl

/-- **The routes after an evaluation that selects a router**: the route of the lease
through it, and all routes that were there but the resolved default routes through
another router. -/
theorem update_of_select (routes : List (Route ρ)) (hdes : Designates S link lease)
    (haddr : lease.address = .ok address)
    (hselect : dhcp4SelectNdiscRouter link = some gw) :
    ∃ routes', dhcp4Ipv6ResolvedGatewayUpdate S .succeed link routes = (.ok (), routes') ∧
      ∀ x, x ∈ routes' ↔ x = leaseRoute S link gw address ∨
        x ∈ routes ∧ ¬ (IsResolvedDefault link x ∧ x.nexthop.gw6 ≠ gw) := by
  have hstale : collectStale .succeed link gw routes 0 =
      some (routes.filter (isStale link gw)) := collectStale_of_succeed routes (fun _ => rfl) 0
  have hkernel := hdes.1
  refine ⟨S.requestRoute link (resolvedRoute S gw address)
    ((routes.filter (isStale link gw)).foldl
      (fun routes rt => S.routeRemoveAndCancel rt routes) routes), ?_, fun x => ?_⟩
  · rw [update_of_designates hdes]
    simp only [dhcp4RequestIpv6ResolvedGateway, hkernel, not_true_eq_false, if_false, hselect,
      haddr, hstale]
    rfl
  · rw [S.mem_requestRoute, mem_foldl_remove, List.mem_filter, isStale_iff, leaseRoute]
    constructor
    · rintro (h | ⟨hx, hnot⟩)
      · exact Or.inl h
      · exact Or.inr ⟨hx, fun h => hnot ⟨hx, h⟩⟩
    · rintro (h | ⟨hx, hnot⟩)
      · exact Or.inl h
      · exact Or.inr ⟨hx, fun h => hnot h.2⟩

/-- The route of a lease is a resolved default route through its router. -/
theorem isResolvedDefault_leaseRoute :
    IsResolvedDefault link (leaseRoute S link gw address) ∧
      (leaseRoute S link gw address).nexthop.gw6 = gw := by
  obtain ⟨hsource, hfamily, hdst, hnexthop⟩ := S.complete_spec link (resolvedRoute S gw address)
  rw [IsResolvedDefault, leaseRoute, hsource, hfamily, hdst, hnexthop]
  exact ⟨⟨rfl, rfl, rfl, S.routeNew_dstPrefixlen, rfl⟩, rfl⟩

end Evaluation

/-! ### Histories of the router list -/

/-- What happens to the routes of a link: an RA or an expiry leaves it with a router list
and evaluates the gateway again, or others change the routes of the manager. -/
inductive Happening (ρ : Type)
  | update (routers : List (IPv6 × Router)) (calls : Calls)
  | others (routes : List (Route ρ))

section Histories

variable {ρ : Type} {S : System ρ} {link : Link} {lease : Lease} {address : BitVec 32}
  {routes routes' : List (Route ρ)} {es : List (Happening ρ)}

/-- One step of a history. Others leave the resolved default routes of the link alone. -/
def LinkTurn (S : System ρ) (link : Link) (routes : List (Route ρ)) :
    Happening ρ → List (Route ρ) → Prop
  | .update routers calls, routes' =>
      routes' = (dhcp4Ipv6ResolvedGatewayUpdate S calls (link.withRouters routers) routes).2
  | .others routes₁, routes' =>
      (∀ x, IsResolvedDefault link x → (x ∈ routes₁ ↔ x ∈ routes)) ∧ routes' = routes₁

/-- No call of the evaluation fails. -/
def Succeeds : Happening ρ → Prop
  | .update _ calls => calls = .succeed
  | .others _ => True

/-- The evaluation finds a router whose preference is not reserved. -/
def FindsRouter (link : Link) : Happening ρ → Prop
  | .update routers _ => Usable (link.withRouters routers)
  | .others _ => False

/-- The evaluation, if it is one, finds a router. -/
def NeverWithout (link : Link) : Happening ρ → Prop
  | .update routers _ => Usable (link.withRouters routers)
  | .others _ => True

/-- There is no resolved default route on the link. -/
def NoDefault (link : Link) (routes : List (Route ρ)) : Prop :=
  ∀ x ∈ routes, ¬ IsResolvedDefault link x

/-- Every resolved default route of the link is a route of its lease. -/
def OnlyLease (S : System ρ) (link : Link) (address : BitVec 32) (routes : List (Route ρ)) :
    Prop :=
  ∀ x ∈ routes, IsResolvedDefault link x → x = leaseRoute S link x.nexthop.gw6 address

/-- A designated link stays designated when its router list changes. -/
theorem Designates.withRouters (h : Designates S link lease) (routers : List (IPv6 × Router)) :
    Designates S (link.withRouters routers) lease := h

/-- The route of a lease does not depend on the router list. -/
theorem leaseRoute_withRouters (routers : List (IPv6 × Router)) (gw : IPv6) :
    leaseRoute S (link.withRouters routers) gw address = leaseRoute S link gw address :=
  S.complete_routers link routers _

/-- An evaluation that finds a router and does not fail selects the best one, and leaves
its route and all routes that are not resolved default routes through another router. -/
theorem update_of_usable (routes : List (Route ρ)) (hdes : Designates S link lease)
    (haddr : lease.address = .ok address)
    {routers : List (IPv6 × Router)} (husable : Usable (link.withRouters routers)) :
    ∃ gw routes', IsBest (candidates (link.withRouters routers)) gw ∧
      dhcp4Ipv6ResolvedGatewayUpdate S .succeed (link.withRouters routers) routes =
        (.ok (), routes') ∧
      ∀ x, x ∈ routes' ↔ x = leaseRoute S link gw address ∨
        x ∈ routes ∧ ¬ (IsResolvedDefault link x ∧ x.nexthop.gw6 ≠ gw) := by
  cases hselect : dhcp4SelectNdiscRouter (link.withRouters routers) with
  | none => exact absurd husable (dhcp4SelectNdiscRouter_eq_none_iff.mp hselect)
  | some gw =>
      obtain ⟨routes', hupdate, hmem⟩ :=
        update_of_select routes (hdes.withRouters routers) haddr hselect
      rw [leaseRoute_withRouters] at hmem
      exact ⟨gw, routes', isBest_of_dhcp4SelectNdiscRouter hselect, hupdate, hmem⟩

/-- **One step keeps the resolved default routes those of the lease.** -/
theorem onlyLease_step (hdes : Designates S link lease) (haddr : lease.address = .ok address)
    (hinv : OnlyLease S link address routes) {e : Happening ρ} (hok : Succeeds e)
    (hturn : LinkTurn S link routes e routes') : OnlyLease S link address routes' := by
  cases e with
  | others routes₁ =>
      obtain ⟨hsame, rfl⟩ := hturn
      exact fun x hx hdefault => hinv x ((hsame x hdefault).mp hx) hdefault
  | update routers calls =>
      obtain rfl : calls = .succeed := hok
      by_cases husable : Usable (link.withRouters routers)
      · obtain ⟨gw, routes₁, -, hupdate, hmem⟩ :=
          update_of_usable routes hdes haddr husable
        obtain rfl : routes' = routes₁ := by rw [hturn, hupdate]
        intro x hx hdefault
        rcases (hmem x).mp hx with rfl | ⟨hold, -⟩
        · rw [isResolvedDefault_leaseRoute.2]
        · exact hinv x hold hdefault
      · rw [hturn, update_of_not_usable (hdes.withRouters routers) husable]
        exact hinv

/-- **One resolved default route, through the best router**: after any history of
evaluations that do not fail and each find a router, the next such evaluation leaves
exactly one resolved default route on the link, through the best router in whatever order
the list is visited, and touches no other route. -/
theorem unique_resolved_default (hdes : Designates S link lease)
    (haddr : lease.address = .ok address) (hstart : OnlyLease S link address routes)
    (hrun : Run (fun r e r' => (Succeeds e ∧ NeverWithout link e) ∧ LinkTurn S link r e r')
      routes es routes')
    {routers : List (IPv6 × Router)} (husable : Usable (link.withRouters routers)) :
    ∃ routes'',
      dhcp4Ipv6ResolvedGatewayUpdate S .succeed (link.withRouters routers) routes' =
        (.ok (), routes'') ∧
      (∃! x, x ∈ routes'' ∧ IsResolvedDefault link x) ∧
      (∀ x ∈ routes'', IsResolvedDefault link x →
        ∀ visited : List (IPv6 × Router), visited.Perm routers →
          IsBest (candidates (link.withRouters visited)) x.nexthop.gw6 ∧
          dhcp4SelectNdiscRouter (link.withRouters visited) = some x.nexthop.gw6) ∧
      ∀ x, ¬ IsResolvedDefault link x → (x ∈ routes'' ↔ x ∈ routes') := by
  have hlease : OnlyLease S link address routes' :=
    hrun.invariant (fun _ _ _ hinv ⟨⟨hok, _⟩, hturn⟩ =>
      onlyLease_step hdes haddr hinv hok hturn) hstart
  obtain ⟨gw, routes'', hbest, hupdate, hmem⟩ :=
    update_of_usable routes' hdes haddr husable
  -- every resolved default route that is left goes through the selected router
  have hgw : ∀ x ∈ routes'', IsResolvedDefault link x → x.nexthop.gw6 = gw := by
    intro x hx hdefault
    rcases (hmem x).mp hx with rfl | ⟨-, hnot⟩
    · exact isResolvedDefault_leaseRoute.2
    · exact not_not.mp fun hne => hnot ⟨hdefault, hne⟩
  have hall : ∀ x ∈ routes'', IsResolvedDefault link x → x = leaseRoute S link gw address := by
    intro x hx hdefault
    rcases (hmem x).mp hx with h | ⟨hold, -⟩
    · exact h
    · rw [← hgw x hx hdefault]
      exact hlease x hold hdefault
  refine ⟨routes'', hupdate, ⟨leaseRoute S link gw address,
    ⟨(hmem _).mpr (Or.inl rfl), isResolvedDefault_leaseRoute.1⟩,
    fun x ⟨hx, hdefault⟩ => hall x hx hdefault⟩, ?_, fun x hnot => ?_⟩
  · intro x hx hdefault visited hperm
    rw [hgw x hx hdefault]
    have hvisited : IsBest (candidates (link.withRouters visited)) gw :=
      hbest.congr fun e => ((hperm.map _).mem_iff).symm
    refine ⟨hvisited, ?_⟩
    cases hselect : dhcp4SelectNdiscRouter (link.withRouters visited) with
    | none =>
        obtain ⟨rank, hin, hrank, -⟩ := hvisited
        exact absurd ⟨_, hin, hrank⟩ (dhcp4SelectNdiscRouter_eq_none_iff.mp hselect)
    | some gw' => rw [(isBest_of_dhcp4SelectNdiscRouter hselect).unique hvisited]
  · constructor
    · intro hx
      rcases (hmem x).mp hx with rfl | ⟨hold, -⟩
      · exact absurd isResolvedDefault_leaseRoute.1 hnot
      · exact hold
    · exact fun hx => (hmem x).mpr (Or.inr ⟨hx, fun h => hnot h.1⟩)

/-! ### Losing the last router -/

/-- One step that does not fail leaves no resolved default route exactly when there was
none and it finds no router. -/
theorem noDefault_step_iff (hdes : Designates S link lease)
    (haddr : lease.address = .ok address) {e : Happening ρ} (hok : Succeeds e)
    (hturn : LinkTurn S link routes e routes') :
    NoDefault link routes' ↔ NoDefault link routes ∧ ¬ FindsRouter link e := by
  cases e with
  | others routes₁ =>
      obtain ⟨hsame, rfl⟩ := hturn
      constructor
      · exact fun h => ⟨fun x hx hdefault =>
          h x ((hsame x hdefault).mpr hx) hdefault, not_false⟩
      · exact fun h x hx hdefault => h.1 x ((hsame x hdefault).mp hx) hdefault
  | update routers calls =>
      obtain rfl : calls = .succeed := hok
      by_cases husable : Usable (link.withRouters routers)
      · obtain ⟨gw, routes₁, -, hupdate, hmem⟩ :=
          update_of_usable routes hdes haddr husable
        obtain rfl : routes' = routes₁ := by rw [hturn, hupdate]
        refine iff_of_false (fun h => ?_) fun h => h.2 husable
        exact h _ ((hmem _).mpr (Or.inl rfl)) isResolvedDefault_leaseRoute.1
      · obtain rfl : routes' = routes := by
          rw [hturn, update_of_not_usable (hdes.withRouters routers) husable]
        exact ⟨fun h => ⟨h, husable⟩, fun h => h.1⟩

/-- A history that does not fail leaves no resolved default route exactly when there was
none and no evaluation found a router. -/
theorem noDefault_run_iff (hdes : Designates S link lease)
    (haddr : lease.address = .ok address)
    (hrun : Run (fun r e r' => Succeeds e ∧ LinkTurn S link r e r') routes es routes') :
    NoDefault link routes' ↔ NoDefault link routes ∧ ∀ e ∈ es, ¬ FindsRouter link e := by
  induction hrun with
  | nil routes => exact ⟨fun h => ⟨h, fun e he => nomatch he⟩, fun h => h.1⟩
  | cons hstep _ ih =>
      rw [ih, noDefault_step_iff hdes haddr hstep.1 hstep.2, and_assoc, List.forall_mem_cons]

/-- **What is left when the last router is gone**: an evaluation that finds no router
leaves no resolved default route exactly when there was none before it; and after a
history that began without one and in which no call failed, exactly when no evaluation of
that history found a router. -/
theorem noDefault_update_iff (hdes : Designates S link lease)
    {routers : List (IPv6 × Router)} (hnone : ¬ Usable (link.withRouters routers)) (calls : Calls) :
    (∀ routes : List (Route ρ),
      NoDefault link
          (dhcp4Ipv6ResolvedGatewayUpdate S calls (link.withRouters routers) routes).2 ↔
        NoDefault link routes) ∧
    ∀ (routes : List (Route ρ)) es routes' address, lease.address = .ok address →
      NoDefault link routes →
      Run (fun r e r' => Succeeds e ∧ LinkTurn S link r e r') routes es routes' →
      (NoDefault link
          (dhcp4Ipv6ResolvedGatewayUpdate S calls (link.withRouters routers) routes').2 ↔
        ∀ e ∈ es, ¬ FindsRouter link e) := by
  have hkeeps : ∀ routes : List (Route ρ),
      (dhcp4Ipv6ResolvedGatewayUpdate S calls (link.withRouters routers) routes).2 = routes :=
    fun routes => by rw [update_of_not_usable (hdes.withRouters routers) hnone]
  refine ⟨fun routes => by rw [hkeeps], fun routes es routes' address haddr hstart hrun => ?_⟩
  rw [hkeeps, noDefault_run_iff hdes haddr hrun]
  exact ⟨fun h => h.2, fun h => ⟨hstart, h⟩⟩

end Histories

/-! ### A link with one router -/

/-- A system whose routes have no attributes but those the patch looks at. -/
def plainSystem : System Unit where
  routeNew := ⟨.other, .unspec, 0, ⟨0, .unspec, 0⟩, 0, ()⟩
  complete link r :=
    { r with
      source := .dhcp4
      family := .inet
      nexthop := { r.nexthop with ifindex := link.ifindex } }
  requestRoute link r routes :=
    { r with
      source := .dhcp4
      family := .inet
      nexthop := { r.nexthop with ifindex := link.ifindex } } :: routes
  routeRemoveAndCancel r routes := routes.filter fun x => decide (x ≠ r)
  kernelSupportsIpv4ViaIpv6 := true
  routeNew_dstPrefixlen := rfl
  complete_spec _ _ := ⟨rfl, rfl, rfl, rfl⟩
  complete_routers _ _ _ := rfl
  mem_requestRoute _ _ _ _ := List.mem_cons
  mem_routeRemoveAndCancel r routes x := by simp

/-- The lease of the examples. -/
def plainLease : Lease := ⟨some DHCP4_GATEWAY_IPV6_RESOLVED, .ok 0xc6336402#32, false⟩

/-- A link with that lease and no router. -/
def plainLink : Link := ⟨3, some plainLease, some ⟨true, true, false⟩, []⟩

/-- Two routers: one of medium preference, and one of high preference. -/
def twoRouters : List (IPv6 × Router) :=
  [(0xfe800000000000000000000000000001#128, ⟨none⟩),
    (0xfe800000000000000000000000000002#128, ⟨some .high⟩)]

/-- A route of another source on the link. -/
def otherRoute : Route Unit := ⟨.other, .inet, 0, ⟨3, .inet, 0⟩, 0, ()⟩

theorem designates_plainLink : Designates plainSystem plainLink plainLease :=
  ⟨rfl, rfl, rfl, _, rfl, rfl, rfl, fun h => Bool.false_ne_true h.1⟩

theorem not_usable_nil : ¬ Usable (plainLink.withRouters []) := by
  rintro ⟨e, he, -⟩
  cases he

/-- A route that others add. -/
def addedRoute : Route Unit := ⟨.other, .inet, 24, ⟨3, .inet, 0⟩, 0, ()⟩

/-- Two routers of high preference, one of medium preference, and a reserved one. -/
def tiedRouters : List (IPv6 × Router) :=
  [(0xfe800000000000000000000000000003#128, ⟨some .high⟩),
    (0xfe800000000000000000000000000001#128, ⟨none⟩),
    (0xfe800000000000000000000000000002#128, ⟨some .high⟩),
    (0xfe800000000000000000000000000000#128, ⟨some .reserved⟩)]

/-- The routes after an evaluation that finds the first of `twoRouters` only. -/
def firstRoutes : List (Route Unit) :=
  (dhcp4Ipv6ResolvedGatewayUpdate plainSystem .succeed (plainLink.withRouters (twoRouters.take 1))
    [otherRoute]).2

theorem onlyLease_otherRoute : OnlyLease plainSystem plainLink 0xc6336402#32 [otherRoute] := by
  intro x hx hdefault
  obtain rfl := List.mem_singleton.mp hx
  cases hdefault.1

/-- Others leave the resolved default routes alone. -/
theorem linkTurn_addedRoute (routes : List (Route Unit)) :
    LinkTurn plainSystem plainLink routes (.others (addedRoute :: routes))
      (addedRoute :: routes) := by
  refine ⟨fun x hdefault => List.mem_cons.trans (or_iff_right ?_), rfl⟩
  rintro rfl
  cases hdefault.1

/-- The next hop moves to the lowest one of the routers of high preference. -/
theorem unique_resolved_default_tied :
    ∃ routes, dhcp4Ipv6ResolvedGatewayUpdate plainSystem .succeed
        (plainLink.withRouters tiedRouters) (addedRoute :: firstRoutes) = (.ok (), routes) ∧
      (∃! x, x ∈ routes ∧ IsResolvedDefault plainLink x) ∧
      (∀ x ∈ routes, IsResolvedDefault plainLink x →
        ∀ visited : List (IPv6 × Router), visited.Perm tiedRouters →
          IsBest (candidates (plainLink.withRouters visited)) x.nexthop.gw6 ∧
          dhcp4SelectNdiscRouter (plainLink.withRouters visited) = some x.nexthop.gw6) ∧
      ∀ x, ¬ IsResolvedDefault plainLink x → (x ∈ routes ↔ x ∈ addedRoute :: firstRoutes) := by
  have hfirst : Usable (plainLink.withRouters (twoRouters.take 1)) :=
    ⟨(0xfe800000000000000000000000000001#128, 1), by decide, by decide⟩
  have htied : Usable (plainLink.withRouters tiedRouters) :=
    ⟨(0xfe800000000000000000000000000001#128, 1), by decide, by decide⟩
  have hrun : Run (fun r e r' => (Succeeds e ∧ NeverWithout plainLink e) ∧
      LinkTurn plainSystem plainLink r e r') [otherRoute]
      [.update (twoRouters.take 1) .succeed, .others (addedRoute :: firstRoutes)]
      (addedRoute :: firstRoutes) :=
    .cons ⟨⟨rfl, hfirst⟩, rfl⟩ (Run.single ⟨⟨trivial, trivial⟩, linkTurn_addedRoute _⟩)
  exact unique_resolved_default designates_plainLink rfl onlyLease_otherRoute hrun htied

/-- A reserved router only. -/
def reservedRouters : List (IPv6 × Router) :=
  [(0xfe800000000000000000000000000001#128, ⟨some .reserved⟩)]

theorem not_usable_reservedRouters : ¬ Usable (plainLink.withRouters reservedRouters) := by
  rintro ⟨e, he, hrank⟩
  obtain rfl := List.mem_singleton.mp he
  exact absurd hrank (by decide)

/-- When a reserved router expires, a resolved default route stays if there is one; a link that
has seen no other router has none. -/
theorem noDefault_update_reserved :
    (∀ routes : List (Route Unit), NoDefault plainLink (dhcp4Ipv6ResolvedGatewayUpdate plainSystem
      .succeed (plainLink.withRouters []) routes).2 ↔ NoDefault plainLink routes) ∧
    NoDefault plainLink (dhcp4Ipv6ResolvedGatewayUpdate plainSystem .succeed
      (plainLink.withRouters []) [addedRoute, otherRoute]).2 := by
  obtain ⟨hall, hhistory⟩ := noDefault_update_iff designates_plainLink not_usable_nil .succeed
  have hstart : NoDefault plainLink [otherRoute] := by
    intro x hx hdefault
    obtain rfl := List.mem_singleton.mp hx
    cases hdefault.1
  have hrun : Run (fun r e r' => Succeeds e ∧ LinkTurn plainSystem plainLink r e r') [otherRoute]
      [.update reservedRouters .succeed, .others [addedRoute, otherRoute]]
      [addedRoute, otherRoute] :=
    .cons ⟨rfl, rfl⟩ (Run.single ⟨trivial, linkTurn_addedRoute _⟩)
  refine ⟨hall, (hhistory _ _ _ _ rfl hstart hrun).mpr ?_⟩
  simp only [List.forall_mem_cons]
  exact ⟨not_usable_reservedRouters, not_false, nofun⟩

/-- **The last route is never withdrawn**: when the two routers expire together, the
evaluation that follows finds no router, and the default route through one of them
stays. -/
theorem lost_router_keeps_default :
    let routes := (dhcp4Ipv6ResolvedGatewayUpdate plainSystem .succeed
      (plainLink.withRouters twoRouters) [otherRoute]).2
    Run (fun r e r' => Succeeds e ∧ LinkTurn plainSystem plainLink r e r') [otherRoute]
        [.update twoRouters .succeed] routes ∧
      ¬ Usable (plainLink.withRouters []) ∧
      ¬ NoDefault plainLink (dhcp4Ipv6ResolvedGatewayUpdate plainSystem .succeed
        (plainLink.withRouters []) routes).2 := by
  intro routes
  refine ⟨Run.single ⟨rfl, rfl⟩, not_usable_nil, fun h => ?_⟩
  have hmem : leaseRoute plainSystem plainLink 0xfe800000000000000000000000000002#128
      0xc6336402#32 ∈ (dhcp4Ipv6ResolvedGatewayUpdate plainSystem .succeed
        (plainLink.withRouters []) routes).2 := by decide
  exact h _ hmem isResolvedDefault_leaseRoute.1

end V4WithV6Nh.Networkd
