import V4WithV6Nh.ResolvedGateway

/-!
# A Failed Evaluation of the Resolved Gateway

`dhcp4_request_ipv6_resolved_gateway` can fail at four places. The lease address and the
allocations of the collection fail before a route is touched. `route_new` and
`dhcp4_request_route` fail after the sweep, so the default routes through other routers are
gone and the one through the selected router is not there.

## Main results

* `collectStale_eq_none_iff`: an allocation fails for one of the stale routes.
* `keepsDefaults_iff`: an evaluation that fails keeps the default routes exactly when it
  fails before the sweep, or there is nothing to sweep.
-/

namespace V4WithV6Nh.Networkd

section Evaluation

variable {ρ : Type} {S : System ρ} {calls : Calls} {link : Link} {lease : Lease} {gw : IPv6}
  {routes : List (Route ρ)} {e : ℕ}

/-- The resolved default routes of the link are still there. -/
def KeepsDefaults (link : Link) (routes routes' : List (Route ρ)) : Prop :=
  ∀ x ∈ routes, IsResolvedDefault link x → x ∈ routes'

/-- The lease has no address, or the array does not grow for one of the stale routes. -/
def FailsBeforeSweep (calls : Calls) (link : Link) (lease : Lease) (gw : IPv6)
    (routes : List (Route ρ)) : Prop :=
  (∃ e, lease.address = .error e) ∨
    ∃ n < (routes.filter (isStale link gw)).length, calls.greedyRealloc n = true

/-- **When the collection fails**, after `k` routes: the array does not grow for one of the
stale routes that follow. -/
theorem collectStale_eq_none_iff (routes : List (Route ρ)) (k : ℕ) :
    collectStale calls link gw routes k = none ↔
      ∃ n < (routes.filter (isStale link gw)).length, calls.greedyRealloc (k + n) = true := by
  induction routes generalizing k with
  | nil => simp [collectStale]
  | cons x xs ih =>
      rw [collectStale]
      by_cases hx : isStale link gw x = true
      · rw [if_pos hx, List.filter_cons_of_pos hx, List.length_cons]
        by_cases halloc : calls.greedyRealloc k = true
        · rw [if_pos halloc]
          exact iff_of_true rfl ⟨0, Nat.succ_pos _, halloc⟩
        · rw [if_neg halloc, Option.map_eq_none_iff, ih]
          constructor
          · rintro ⟨n, hn, hfails⟩
            refine ⟨n + 1, Nat.succ_lt_succ hn, ?_⟩
            rwa [Nat.add_right_comm] at hfails
          · rintro ⟨n, hn, hfails⟩
            cases n with
            | zero => exact absurd hfails halloc
            | succ n =>
                refine ⟨n, Nat.lt_of_succ_lt_succ hn, ?_⟩
                rwa [Nat.add_right_comm]
      · rw [if_neg hx, List.filter_cons_of_neg hx, ih]

/-- What the collection finds. -/
theorem eq_filter_of_collectStale {stale : List (Route ρ)} {k : ℕ}
    (h : collectStale calls link gw routes k = some stale) :
    stale = routes.filter (isStale link gw) := by
  induction routes generalizing k stale with
  | nil => exact (Option.some.inj h).symm
  | cons x xs ih =>
      rw [collectStale] at h
      by_cases hx : isStale link gw x = true
      · rw [if_pos hx] at h
        split at h
        · cases h
        · obtain ⟨stale', hstale, rfl⟩ := Option.map_eq_some_iff.mp h
          rw [List.filter_cons_of_pos hx, ih hstale]
      · rw [if_neg hx] at h
        rw [List.filter_cons_of_neg hx, ih h]

/-- The sweep keeps the default routes exactly when all of them go through the selected
router. -/
theorem keepsDefaults_sweep_iff :
    KeepsDefaults link routes ((routes.filter (isStale link gw)).foldl
        (fun routes rt => S.routeRemoveAndCancel rt routes) routes) ↔
      ∀ x ∈ routes, IsResolvedDefault link x → x.nexthop.gw6 = gw := by
  refine forall_congr' fun x => forall_congr' fun hx => forall_congr' fun hdefault => ?_
  rw [mem_foldl_remove, List.mem_filter, isStale_iff]
  constructor
  · intro h
    by_contra hne
    exact h.2 ⟨hx, hdefault, hne⟩
  · exact fun h => ⟨hx, fun hstale => hstale.2.2 h⟩

/-- Before the sweep it is the address or the collection that fails. -/
theorem failsBeforeSweep_iff : FailsBeforeSweep calls link lease gw routes ↔
    (∃ e, lease.address = .error e) ∨ collectStale calls link gw routes 0 = none := by
  simp only [FailsBeforeSweep, collectStale_eq_none_iff, Nat.zero_add]

/-- Behind the collection, an evaluation that fails leaves the routes swept. -/
theorem request_of_collected {address : BitVec 32} {stale : List (Route ρ)}
    (hkernel : S.kernelSupportsIpv4ViaIpv6 = true)
    (hselect : dhcp4SelectNdiscRouter link = some gw) (haddr : lease.address = .ok address)
    (hstale : collectStale calls link gw routes 0 = some stale)
    (h : (dhcp4RequestIpv6ResolvedGateway S calls link lease routes).1 = .error e) :
    (dhcp4RequestIpv6ResolvedGateway S calls link lease routes).2 =
      stale.foldl (fun routes rt => S.routeRemoveAndCancel rt routes) routes := by
  simp only [dhcp4RequestIpv6ResolvedGateway, hkernel, not_true_eq_false, if_false, hselect, haddr,
    hstale] at h ⊢
  cases hnew : calls.routeNew with
  | some e' => rfl
  | none =>
      rw [hnew] at h
      cases hrequest : calls.requestRoute with
      | some e' => rfl
      | none =>
          rw [hrequest] at h
          cases h

/-- **An evaluation that fails** has selected a router; it has left the routes alone, or it
has swept them and nothing more. -/
theorem request_of_error (h : (dhcp4RequestIpv6ResolvedGateway S calls link lease routes).1 =
    .error e) : ∃ gw, dhcp4SelectNdiscRouter link = some gw ∧
      (FailsBeforeSweep calls link lease gw routes ∧
          (dhcp4RequestIpv6ResolvedGateway S calls link lease routes).2 = routes ∨
        ¬ FailsBeforeSweep calls link lease gw routes ∧
          (dhcp4RequestIpv6ResolvedGateway S calls link lease routes).2 =
            (routes.filter (isStale link gw)).foldl
              (fun routes rt => S.routeRemoveAndCancel rt routes) routes) := by
  have hkernel : S.kernelSupportsIpv4ViaIpv6 = true := by
    by_contra hnot
    rw [dhcp4RequestIpv6ResolvedGateway, if_pos hnot] at h
    cases h
  cases hselect : dhcp4SelectNdiscRouter link with
  | none =>
      rw [dhcp4RequestIpv6ResolvedGateway, if_neg (not_not.mpr hkernel), hselect] at h
      cases h
  | some gw =>
      refine ⟨gw, rfl, ?_⟩
      rw [failsBeforeSweep_iff]
      cases haddr : lease.address with
      | error e' =>
          refine Or.inl ⟨Or.inl ⟨e', rfl⟩, ?_⟩
          simp only [dhcp4RequestIpv6ResolvedGateway, hkernel, not_true_eq_false, if_false, hselect,
            haddr]
      | ok address =>
          cases hstale : collectStale calls link gw routes 0 with
          | none =>
              refine Or.inl ⟨Or.inr rfl, ?_⟩
              simp only [dhcp4RequestIpv6ResolvedGateway, hkernel, not_true_eq_false, if_false,
                hselect, haddr, hstale]
          | some stale =>
              refine Or.inr ⟨?_, ?_⟩
              · rintro (⟨e', he'⟩ | hnone)
                · cases he'
                · cases hnone
              · rw [← eq_filter_of_collectStale hstale]
                exact request_of_collected hkernel hselect haddr hstale h

/-- **When a failed evaluation keeps the default routes**: it failed at the address of the
lease or at the collection, or no default route goes through another router than the
selected one. -/
theorem keepsDefaults_iff (h : (dhcp4RequestIpv6ResolvedGateway S calls link lease routes).1 =
    .error e) :
    KeepsDefaults link routes (dhcp4RequestIpv6ResolvedGateway S calls link lease routes).2 ↔
      ∀ gw, dhcp4SelectNdiscRouter link = some gw →
        FailsBeforeSweep calls link lease gw routes ∨
          ∀ x ∈ routes, IsResolvedDefault link x → x.nexthop.gw6 = gw := by
  obtain ⟨gw, hselect, ⟨hbefore, hroutes⟩ | ⟨hbefore, hroutes⟩⟩ := request_of_error h
  · refine iff_of_true ?_ ?_
    · rw [hroutes]
      exact fun x hx _ => hx
    · intro gw' hselect'
      obtain rfl := Option.some.inj (hselect.symm.trans hselect')
      exact Or.inl hbefore
  · rw [hroutes, keepsDefaults_sweep_iff]
    constructor
    · intro hgw gw' hselect'
      obtain rfl := Option.some.inj (hselect.symm.trans hselect')
      exact Or.inr hgw
    · exact fun hgw => (hgw gw hselect).resolve_left hbefore

end Evaluation

/-! ### A second router, and no memory -/

/-- The default route of the lease through the first of the two routers. -/
def firstDefault : Route Unit :=
  leaseRoute plainSystem plainLink 0xfe800000000000000000000000000001#128 0xc6336402#32

/-- The calls of an evaluation in which `route_new` fails. -/
def routeNewFails : Calls := { Calls.succeed with routeNew := some ENOMEM }

/-- The link with the first router. -/
def firstRouter : Link := plainLink.withRouters (twoRouters.take 1)

/-- An evaluation without memory for a route keeps the default route through the router it
selects. -/
theorem keepsDefaults_sameRouter :
    KeepsDefaults firstRouter [firstDefault] (dhcp4RequestIpv6ResolvedGateway plainSystem
      routeNewFails firstRouter plainLease [firstDefault]).2 := by
  have hselect : dhcp4SelectNdiscRouter firstRouter =
      some 0xfe800000000000000000000000000001#128 := by decide
  have hfails : (dhcp4RequestIpv6ResolvedGateway plainSystem routeNewFails firstRouter plainLease
      [firstDefault]).1 = .error ENOMEM := by decide
  refine (keepsDefaults_iff hfails).mpr fun gw hgw => Or.inr fun x hx _ => ?_
  obtain rfl := Option.some.inj (hselect.symm.trans hgw)
  obtain rfl := List.mem_singleton.mp hx
  rfl

/-- **The old default route is gone**: with a second router of a higher preference and no
memory for a route, the evaluation fails with the route through the first router removed. -/
theorem failed_evaluation_loses :
    (dhcp4RequestIpv6ResolvedGateway plainSystem routeNewFails
        (plainLink.withRouters twoRouters) plainLease [firstDefault]).1 = .error ENOMEM ∧
      ¬ KeepsDefaults (plainLink.withRouters twoRouters) [firstDefault]
        (dhcp4RequestIpv6ResolvedGateway plainSystem routeNewFails
          (plainLink.withRouters twoRouters) plainLease [firstDefault]).2 := by
  have hgone : (dhcp4RequestIpv6ResolvedGateway plainSystem routeNewFails
      (plainLink.withRouters twoRouters) plainLease [firstDefault]).2 = [] := by decide
  refine ⟨by decide, fun h => ?_⟩
  have hmem := h firstDefault (List.mem_singleton.mpr rfl) isResolvedDefault_leaseRoute.1
  rw [hgone] at hmem
  cases hmem

end V4WithV6Nh.Networkd
