import V4WithV6Nh.ResolvedGateway

/-!
# A Placeholder While There Is No Router

The optional patch on top of the networkd patch does not defer the IPv4 default route of a link
without an IPv6 default router, but installs it through an address that no host has, and leaves
it to the sweep of the next evaluation to replace it. It changes one branch of
`dhcp4_request_ipv6_resolved_gateway`.

That branch is the one on which a lost router keeps its route. With the placeholder the sweep
comes to pass after every selection, so the resolved default route depends on the router list
alone, and not on what was found before.

## Main results

* `request_placeholder_of_select`: where there is a router the optional patch changes nothing.
* `placeholder_follows_list`: over any history, every evaluation leaves one resolved default
  route, through the best router or the placeholder, and from the first one on there is never
  none or a second one.
-/

namespace V4WithV6Nh.Networkd

/-! ### The optional patch -/

/-- `fe80::c000:c`, one past the sentinel. -/
def PLACEHOLDER : IPv6 := 0xfe8000000000000000000000c000000c#128

section Patch

variable {ρ : Type} {S : System ρ} {calls : Calls} {link : Link} {lease : Lease} {gw : IPv6}
  {routes : List (Route ρ)}

/-- `dhcp4_request_ipv6_resolved_gateway` from the address of the lease on. -/
def programGateway (S : System ρ) (calls : Calls) (link : Link) (lease : Lease) (gw : IPv6)
    (routes : List (Route ρ)) : Except ℕ Unit × List (Route ρ) :=
  match lease.address with
  | .error e => (.error e, routes)
  | .ok address =>
      match collectStale calls link gw routes 0 with
      | none => (.error ENOMEM, routes)
      | some stale =>
          let routes := stale.foldl (fun routes rt => S.routeRemoveAndCancel rt routes) routes
          match calls.routeNew with
          | some e => (.error e, routes)
          | none =>
              match calls.requestRoute with
              | some e => (.error e, routes)
              | none => (.ok (), S.requestRoute link (resolvedRoute S gw address) routes)

/-- `dhcp4_request_ipv6_resolved_gateway` with the optional patch. -/
def requestPlaceholder (S : System ρ) (calls : Calls) (link : Link) (lease : Lease)
    (routes : List (Route ρ)) : Except ℕ Unit × List (Route ρ) :=
  if ¬ S.kernelSupportsIpv4ViaIpv6 then (.ok (), routes)
  else
    match dhcp4SelectNdiscRouter link with
    | none => programGateway S calls link lease PLACEHOLDER routes
    | some gw => programGateway S calls link lease gw routes

/-- `dhcp4_ipv6_resolved_gateway_update` with the optional patch. -/
def updatePlaceholder (S : System ρ) (calls : Calls) (link : Link) (routes : List (Route ρ)) :
    Except ℕ Unit × List (Route ρ) :=
  match link.dhcpLease with
  | none => (.ok (), routes)
  | some lease =>
      match link.network with
      | none => (.ok (), routes)
      | some network =>
          if ¬ network.dhcpUseGateway then (.ok (), routes)
          else if ¬ network.dhcpUseIpv6ResolvedGateway then (.ok (), routes)
          else if network.dhcpUseRoutes ∧ lease.classlessRoutes then (.ok (), routes)
          else
            match lease.router with
            | none => (.ok (), routes)
            | some router =>
                if ¬ dhcp4RouterIsIpv6Resolved router then (.ok (), routes)
                else requestPlaceholder S calls link lease routes

/-- The next hop that an evaluation programs. -/
def placeholderNexthop (link : Link) : IPv6 := (dhcp4SelectNdiscRouter link).getD PLACEHOLDER

/-- The two patches differ where no router is selected, and there only. -/
theorem request_placeholder_of_select (h : dhcp4SelectNdiscRouter link = some gw) :
    requestPlaceholder S calls link lease routes =
      dhcp4RequestIpv6ResolvedGateway S calls link lease routes := by
  rw [requestPlaceholder, dhcp4RequestIpv6ResolvedGateway, h]
  rfl

/-- What is requested, with the next hop by its name. -/
theorem requestPlaceholder_eq (hkernel : S.kernelSupportsIpv4ViaIpv6 = true) :
    requestPlaceholder S calls link lease routes =
      programGateway S calls link lease (placeholderNexthop link) routes := by
  rw [requestPlaceholder, if_neg (not_not.mpr hkernel), placeholderNexthop]
  cases dhcp4SelectNdiscRouter link <;> rfl

/-- The update of a designated link is the request. -/
theorem updatePlaceholder_of_designates (hdes : Designates S link lease) :
    updatePlaceholder S calls link routes =
      programGateway S calls link lease (placeholderNexthop link) routes := by
  obtain ⟨hkernel, hlease, hrouter, network, hnetwork, hgateway, hresolved, hclassless⟩ := hdes
  have hsentinel : dhcp4RouterIsIpv6Resolved DHCP4_GATEWAY_IPV6_RESOLVED = true := by decide
  simp only [updatePlaceholder, hlease, hnetwork, hgateway, hresolved, not_true_eq_false, if_false,
    if_neg hclassless, hrouter, hsentinel, requestPlaceholder_eq hkernel]

/-- **The routes after a program**: the route of the lease through the next hop, and all routes
that were there but the resolved default routes through another. -/
theorem mem_programGateway {address : BitVec 32} (S : System ρ) (link : Link)
    (haddr : lease.address = .ok address) (gw : IPv6) (routes : List (Route ρ)) :
    ∃ routes', programGateway S .succeed link lease gw routes = (.ok (), routes') ∧
      ∀ x, x ∈ routes' ↔ x = leaseRoute S link gw address ∨
        x ∈ routes ∧ ¬ (IsResolvedDefault link x ∧ x.nexthop.gw6 ≠ gw) := by
  have hstale : collectStale .succeed link gw routes 0 =
      some (routes.filter (isStale link gw)) := collectStale_of_succeed routes (fun _ => rfl) 0
  refine ⟨S.requestRoute link (resolvedRoute S gw address)
    ((routes.filter (isStale link gw)).foldl
      (fun routes rt => S.routeRemoveAndCancel rt routes) routes), ?_, fun x => ?_⟩
  · simp only [programGateway, haddr, hstale]
    rfl
  · rw [S.mem_requestRoute, mem_foldl_remove, List.mem_filter, isStale_iff, leaseRoute]
    exact or_congr_right (and_congr_right fun hx => not_congr (and_iff_right hx))

end Patch

/-! ### Histories -/

section Histories

variable {ρ : Type} {S : System ρ} {link : Link} {lease : Lease} {address : BitVec 32} {gw : IPv6}
  {routes routes' : List (Route ρ)} {es : List (Happening ρ)}

/-- One step of a history with the optional patch, in which no call fails. -/
def PlaceholderTurn (S : System ρ) (link : Link) (routes : List (Route ρ)) :
    Happening ρ → List (Route ρ) → Prop
  | .update routers calls, routes' =>
      calls = .succeed ∧
        routes' = (updatePlaceholder S calls (link.withRouters routers) routes).2
  | .others routes₁, routes' =>
      (∀ x, IsResolvedDefault link x → (x ∈ routes₁ ↔ x ∈ routes)) ∧ routes' = routes₁

/-- The resolved default routes of the link are the one of the lease through `gw`. -/
def DefaultVia (S : System ρ) (link : Link) (address : BitVec 32) (gw : IPv6)
    (routes : List (Route ρ)) : Prop :=
  ∀ x, x ∈ routes ∧ IsResolvedDefault link x ↔ x = leaseRoute S link gw address

/-- There is one then. -/
theorem DefaultVia.unique (h : DefaultVia S link address gw routes) :
    ∃! x, x ∈ routes ∧ IsResolvedDefault link x :=
  ⟨_, (h _).mpr rfl, fun _ hx => (h _).mp hx⟩

theorem DefaultVia.onlyLease (h : DefaultVia S link address gw routes) :
    OnlyLease S link address routes := by
  intro x hx hdefault
  have heq := (h x).mp ⟨hx, hdefault⟩
  rw [heq, isResolvedDefault_leaseRoute.2]

/-- **An evaluation leaves one resolved default route**, whatever it finds, and no other route
changes. -/
theorem updatePlaceholder_defaultVia (hdes : Designates S link lease)
    (haddr : lease.address = .ok address) (honly : OnlyLease S link address routes)
    (routers : List (IPv6 × Router)) :
    ∃ routes', updatePlaceholder S .succeed (link.withRouters routers) routes = (.ok (), routes') ∧
      DefaultVia S link address (placeholderNexthop (link.withRouters routers)) routes' ∧
      ∀ x, ¬ IsResolvedDefault link x → (x ∈ routes' ↔ x ∈ routes) := by
  obtain ⟨routes', hprogram, hmem⟩ := mem_programGateway S (link.withRouters routers)
    haddr (placeholderNexthop (link.withRouters routers)) routes
  rw [leaseRoute_withRouters] at hmem
  refine ⟨routes', ?_, fun x => ?_, fun x hnot => ?_⟩
  · rw [updatePlaceholder_of_designates (hdes.withRouters routers), hprogram]
  · rw [hmem]
    constructor
    · rintro ⟨rfl | ⟨hx, hkept⟩, hdefault⟩
      · rfl
      · -- what is not stale goes through the next hop, and is of the lease
        have hgw := not_not.mp fun hne => hkept ⟨hdefault, hne⟩
        rw [← hgw]
        exact honly x hx hdefault
    · rintro rfl
      exact ⟨.inl rfl, isResolvedDefault_leaseRoute.1⟩
  · rw [hmem]
    constructor
    · rintro (rfl | ⟨hx, -⟩)
      · exact absurd isResolvedDefault_leaseRoute.1 hnot
      · exact hx
    · exact fun hx => .inr ⟨hx, fun h => hnot h.1⟩

/-- One step keeps the resolved default routes those of the lease, and keeps one if there is
one. -/
theorem placeholder_step (hdes : Designates S link lease) (haddr : lease.address = .ok address)
    {e : Happening ρ} (hturn : PlaceholderTurn S link routes e routes')
    (honly : OnlyLease S link address routes) : OnlyLease S link address routes' ∧
      ((∃ gw, DefaultVia S link address gw routes) →
        ∃ gw, DefaultVia S link address gw routes') := by
  cases e with
  | others routes₁ =>
      obtain ⟨hsame, rfl⟩ := hturn
      refine ⟨fun x hx hdefault => honly x ((hsame x hdefault).mp hx) hdefault, ?_⟩
      rintro ⟨gw, hvia⟩
      exact ⟨gw, fun x => (and_congr_left fun hdefault => hsame x hdefault).trans (hvia x)⟩
  | update routers calls =>
      obtain ⟨rfl, rfl⟩ := hturn
      obtain ⟨routes₁, hupdate, hvia, -⟩ := updatePlaceholder_defaultVia hdes haddr honly routers
      rw [hupdate]
      exact ⟨hvia.onlyLease, fun _ => ⟨_, hvia⟩⟩

/-- **The default route follows the router list**: after any history in which no call fails and
others leave the resolved default routes alone, an evaluation leaves exactly one resolved default
route, through the router that it selects or else the placeholder, and touches no other route;
and whatever comes after it, there is always exactly one. -/
theorem placeholder_follows_list (hdes : Designates S link lease)
    (haddr : lease.address = .ok address) (hstart : OnlyLease S link address routes)
    (hrun : Run (PlaceholderTurn S link) routes es routes') (routers : List (IPv6 × Router)) :
    ∃ routes'', updatePlaceholder S .succeed (link.withRouters routers) routes' =
        (.ok (), routes'') ∧
      DefaultVia S link address (placeholderNexthop (link.withRouters routers)) routes'' ∧
      (∀ x, ¬ IsResolvedDefault link x → (x ∈ routes'' ↔ x ∈ routes')) ∧
      ∀ es₂ routes₂, Run (PlaceholderTurn S link) routes'' es₂ routes₂ →
        ∃! x, x ∈ routes₂ ∧ IsResolvedDefault link x := by
  have honly : OnlyLease S link address routes' :=
    hrun.invariant (I := OnlyLease S link address)
      (fun _ _ _ hinv hturn => (placeholder_step hdes haddr hturn hinv).1) hstart
  obtain ⟨routes'', hupdate, hvia, hother⟩ :=
    updatePlaceholder_defaultVia hdes haddr honly routers
  refine ⟨routes'', hupdate, hvia, hother, fun es₂ routes₂ hrun₂ => ?_⟩
  have hinv := hrun₂.invariant
    (I := fun r => OnlyLease S link address r ∧ ∃ gw, DefaultVia S link address gw r)
    (fun _ _ _ hinv hturn =>
      have hstep := placeholder_step hdes haddr hturn hinv.1
      ⟨hstep.1, hstep.2 hinv.2⟩) ⟨hvia.onlyLease, _, hvia⟩
  obtain ⟨-, gw, hvia₂⟩ := hinv
  exact hvia₂.unique

end Histories

/-! ### The lost router -/

/-- When the routers expire, the placeholder takes the place of the lost one. -/
theorem placeholder_follows_nil :
    let routes := (updatePlaceholder plainSystem .succeed (plainLink.withRouters twoRouters)
      [otherRoute]).2
    ∃ routes', updatePlaceholder plainSystem .succeed (plainLink.withRouters []) routes =
        (.ok (), routes') ∧
      ∀ x ∈ routes', IsResolvedDefault plainLink x → x.nexthop.gw6 = PLACEHOLDER := by
  intro routes
  have hstart : OnlyLease plainSystem plainLink 0xc6336402#32 [otherRoute] := by
    intro x hx hdefault
    obtain rfl := List.mem_singleton.mp hx
    cases hdefault.1
  have hfirst : PlaceholderTurn plainSystem plainLink [otherRoute]
      (.update twoRouters .succeed) routes := ⟨rfl, rfl⟩
  obtain ⟨routes', hupdate, hvia, -⟩ :=
    placeholder_follows_list designates_plainLink rfl hstart (Run.single hfirst) []
  refine ⟨routes', hupdate, fun x hx hdefault => ?_⟩
  rw [(hvia x).mp ⟨hx, hdefault⟩, isResolvedDefault_leaseRoute.2]
  rfl

end V4WithV6Nh.Networkd
