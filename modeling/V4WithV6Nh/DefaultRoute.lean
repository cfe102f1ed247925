import V4WithV6Nh.FreebsdDaemon

/-!
# The FreeBSD Daemon and the IPv4 Default Route

The daemon adds the default route, or changes the one that is there, according to a flag
that says whether it has installed one. It takes over a default route that it does not
know of: an addition that is refused is followed by a change. It does not notice that a
route it has installed is gone: with the flag set it does nothing for the same router, and
for another one it sends a change, which the kernel refuses, and no addition.

## Main results

* `converged_install_of_clear`: with the flag clear, the addition or the change after it
  installs the route whatever is in the FIB.
* `converges_iff`: a pass that selects a router leaves the default route via that router
  and remembers it, exactly when the flag is clear, or the route is there already, or it is
  to be changed and there is one to change.
-/

namespace V4WithV6Nh.FreebsdDaemon

/-- The IPv4 default route. -/
def default4 (routes4 : List RtMsg) : Option RtMsg := routes4.find? RtMsg.isDefault4

/-- The IPv4 default route is via the router. -/
def Via (ifindex : ℕ) (gw : IPv6) (routes4 : List RtMsg) : Prop :=
  ∃ m, default4 routes4 = some m ∧ m.gateway = some (.inet6 (fillGateway ifindex gw))

section Kernel

variable {ifindex : ℕ} {gw : IPv6} {routes4 : List RtMsg}

/-- The route of a message is a default route. -/
theorem isDefault4_routeRow : (routeRow ifindex gw).isDefault4 = true := by
  simp [RtMsg.isDefault4, routeRow]

/-- A change of the default route makes it go via the router. -/
theorem via_upsertFirst :
    Via ifindex gw (upsertFirst RtMsg.isDefault4 (routeRow ifindex gw) routes4) :=
  ⟨routeRow ifindex gw, find?_upsertFirst isDefault4_routeRow routes4, rfl⟩

/-- There is a default route exactly when a change finds one. -/
theorem any_isDefault4_iff : routes4.any RtMsg.isDefault4 = true ↔ (default4 routes4).isSome := by
  rw [default4, List.find?_isSome, List.any_eq_true]

/-- A change where there is a default route. -/
theorem rtmChange_of_isSome (h : (default4 routes4).isSome) (row : RtMsg) :
    rtmChange row routes4 = (0, upsertFirst RtMsg.isDefault4 row routes4) :=
  if_pos (any_isDefault4_iff.mpr h)

/-- A change where there is none. -/
theorem rtmChange_of_eq_none (h : default4 routes4 = none) (row : RtMsg) :
    rtmChange row routes4 = (-(ESRCH : ℤ), routes4) :=
  if_neg fun hany => by
    rw [any_isDefault4_iff, h] at hany
    cases hany

/-- An addition where there is no default route. -/
theorem rtmAdd_of_eq_none (h : default4 routes4 = none) (row : RtMsg) :
    rtmAdd row routes4 = (0, routes4 ++ [row]) := by
  rw [default4] at h
  rw [rtmAdd, h]

/-- An addition where there is a default route is refused, in one of the two ways that
`install` knows. -/
theorem rtmAdd_of_isSome (h : (default4 routes4).isSome) (row : RtMsg) :
    ((rtmAdd row routes4).1 = -(EEXIST : ℤ) ∨ (rtmAdd row routes4).1 = -(EINVAL : ℤ)) ∧
      (rtmAdd row routes4).2 = routes4 := by
  obtain ⟨old, hold⟩ := Option.isSome_iff_exists.mp h
  rw [default4] at hold
  rw [rtmAdd, hold]
  simp only
  split
  · exact ⟨Or.inr rfl, rfl⟩
  · exact ⟨Or.inl rfl, rfl⟩

/-- An added default route goes via the router. -/
theorem via_append (h : default4 routes4 = none) :
    Via ifindex gw (routes4 ++ [routeRow ifindex gw]) := by
  refine ⟨routeRow ifindex gw, ?_, rfl⟩
  rw [default4] at h ⊢
  rw [List.find?_append, h, List.find?_cons, isDefault4_routeRow]
  rfl

end Kernel

/-! ### A pass that selects a router -/

section Passes

variable {calls : Calls} {d : Daemon} {w : World} {gw : IPv6}

/-- The pass finds its interface, passes its gate and selects the router. -/
def Selects (calls : Calls) (d : Daemon) (w : World) (gw : IPv6) : Prop :=
  w.ifNametoindex d.cfg.ifname ≠ 0 ∧ gate calls d.cfg w = true ∧
    nextHop calls (w.ifNametoindex d.cfg.ifname) w = some gw

/-- The default route is via the router, and the daemon knows that it is. -/
def Converged (gw : IPv6) (d : Daemon) (w : World) : Prop :=
  Via d.ifindex gw w.routes4 ∧ d.routeInstalled = true ∧ d.installedGw = gw

/-- If the daemon believes that it has installed a route: the route is there, or it is to be
changed and there is one to change. -/
def Ready (ifindex : ℕ) (gw : IPv6) (d : Daemon) (routes4 : List RtMsg) : Prop :=
  d.routeInstalled = true →
    if d.installedGw = gw then Via ifindex gw routes4 else (default4 routes4).isSome

/-- What a pass that selects a router does. -/
theorem reconcile_of_selects (h : Selects calls d w gw) : reconcile calls d w =
    install calls { d with ifindex := w.ifNametoindex d.cfg.ifname } gw w := by
  obtain ⟨hindex, hgate, hhop⟩ := h
  simp only [reconcile, if_neg hindex, hgate, not_true_eq_false, if_false, hhop]

/-- **A first installation converges** on every FIB. -/
theorem converged_install_of_clear (hwrite : ∀ t, calls.write t = none)
    (hflag : d.routeInstalled = false) :
    Converged gw (install calls d gw w).1 (install calls d gw w).2 := by
  have hnot : ¬ (d.routeInstalled = true ∧ d.installedGw = gw) := by simp [hflag]
  rw [install, if_neg hnot]
  simp only [hflag, Bool.false_eq_true, if_false, not_false_eq_true, true_and, routeMsg, hwrite]
  cases hdefault : default4 w.routes4 with
  | none =>
      rw [rtmAdd_of_eq_none hdefault]
      exact ⟨via_append hdefault, rfl, rfl⟩
  | some old =>
      have hsome : (default4 w.routes4).isSome := by rw [hdefault]; rfl
      obtain ⟨hrefused, hsame⟩ := rtmAdd_of_isSome hsome (routeRow d.ifindex gw)
      rw [if_pos hrefused, hsame, rtmChange_of_isSome hsome]
      exact ⟨via_upsertFirst, rfl, rfl⟩

/-- With the flag set another router is taken by a change, which needs a default route. -/
theorem converged_install_iff_of_changed (hwrite : ∀ t, calls.write t = none)
    (hflag : d.routeInstalled = true) (hgw : d.installedGw ≠ gw) :
    Converged gw (install calls d gw w).1 (install calls d gw w).2 ↔
      (default4 w.routes4).isSome := by
  have hnot : ¬ (d.routeInstalled = true ∧ d.installedGw = gw) := fun h => hgw h.2
  rw [install, if_neg hnot]
  simp only [hflag, if_true, not_true_eq_false, false_and, if_false, routeMsg, hwrite]
  cases hdefault : default4 w.routes4 with
  | none =>
      rw [rtmChange_of_eq_none hdefault]
      refine iff_of_false (fun h => hgw h.2.2) Bool.false_ne_true
  | some old =>
      have hsome : (default4 w.routes4).isSome := by rw [hdefault]; rfl
      rw [rtmChange_of_isSome hsome]
      exact iff_of_true ⟨via_upsertFirst, rfl, rfl⟩ rfl

/-- **Exactly when an installation converges.** -/
theorem converged_install_iff (hwrite : ∀ t, calls.write t = none) :
    Converged gw (install calls d gw w).1 (install calls d gw w).2 ↔
      Ready d.ifindex gw d w.routes4 := by
  cases hflag : d.routeInstalled with
  | false =>
      refine iff_of_true (converged_install_of_clear hwrite hflag) fun hset => ?_
      rw [hflag] at hset
      cases hset
  | true =>
      by_cases hgw : d.installedGw = gw
      · rw [Ready, if_pos hgw, install, if_pos ⟨hflag, hgw⟩]
        exact ⟨fun h _ => h.1, fun h => ⟨h hflag, hflag, hgw⟩⟩
      · rw [Ready, if_neg hgw, converged_install_iff_of_changed hwrite hflag hgw]
        exact ⟨fun h _ => h, fun h => h hflag⟩

/-- **Exactly when a pass converges**: for every daemon state and every FIB, a pass that
selects a router and whose writes the kernel carries out leaves the default route via that
router and remembers it, exactly when the daemon was ready for it. -/
theorem converges_iff (hwrite : ∀ t, calls.write t = none) (h : Selects calls d w gw) :
    Converged gw (reconcile calls d w).1 (reconcile calls d w).2 ↔
      Ready (w.ifNametoindex d.cfg.ifname) gw d w.routes4 := by
  rw [reconcile_of_selects h]
  exact converged_install_iff hwrite

end Passes

/-! ### A flushed default route -/

/-- Without a file there is at most one gate. -/
theorem one_gate_of_no_file (requireSentinelRoute : Bool) :
    ¬ (requireSentinelRoute = true ∧ (none : Option Text).isSome = true) :=
  fun h => Bool.false_ne_true h.2

/-- The daemon without a gate. -/
def unconditional : Config := ⟨"em0".toList, false, none, one_gate_of_no_file false⟩

/-- The daemon when it starts on `em0`. -/
def started : Daemon := Daemon.fresh unconditional 2

/-- An interface with one default router. -/
def withRouter (gw : IPv6) (routes4 : List RtMsg) : World where
  ifNametoindex n := if n = "em0".toList then 2 else 0
  drlist := [⟨gw, 0, 2⟩]
  routes6 := []
  routes4 := routes4
  files _ := none

/-- Two routers. -/
def gwA : IPv6 := 0xfe80000000000000000000000000000a#128

def gwB : IPv6 := 0xfe80000000000000000000000000000b#128

theorem selects_withRouter (d : Daemon) (hcfg : d.cfg = unconditional) (gw : IPv6)
    (routes4 : List RtMsg) : Selects .succeed d (withRouter gw routes4) gw := by
  obtain ⟨cfg, ifindex, flag, igw⟩ := d
  obtain rfl : cfg = unconditional := hcfg
  have hindex : (withRouter gw routes4).ifNametoindex unconditional.ifname = 2 := by
    simp [withRouter, unconditional]
  have hrank : prefRank 0#8 = 1 := by decide
  have hselect : selectRouter 2 [⟨gw, 0, 2⟩] = some gw := by
    simp [selectRouter, considerRouter, hrank]
  refine ⟨?_, rfl, ?_⟩
  · rw [hindex]
    decide
  · have hlist : sysctl .succeed .drlist (withRouter gw routes4).drlist = [⟨gw, 0, 2⟩] := rfl
    rw [hindex, nextHop, hlist, hselect, Option.some_or]

/-- The daemon after a pass that has selected the first router. -/
def following : Daemon := (reconcile .succeed started (withRouter gwA [])).1

/-- A default route of others. -/
def foreignDefault : RtMsg := { routeRow 2 gwA with gateway := some (.inet 0xc0000201#32) }

/-- A pass that selects another router takes over a default route that has come meanwhile. -/
theorem converges_foreign :
    Converged gwB (reconcile .succeed following (withRouter gwB [foreignDefault])).1
      (reconcile .succeed following (withRouter gwB [foreignDefault])).2 := by
  have hselects := selects_withRouter following rfl gwB [foreignDefault]
  refine (converges_iff (fun _ => rfl) hselects).mpr fun _ => ?_
  rw [if_neg (by decide)]
  decide

/-- **A flushed default route is not restored**: after a first pass others flush the IPv4
routes; neither a pass that selects the same router nor one that selects another leaves a
default route, although every call is carried out. -/
theorem flushed_route_not_restored :
    ∃ d : Daemon, d = (reconcile .succeed started (withRouter gwA [])).1 ∧
      ∀ gw ∈ [gwA, gwB], Selects .succeed d (withRouter gw []) gw ∧
        ¬ Converged gw (reconcile .succeed d (withRouter gw [])).1
          (reconcile .succeed d (withRouter gw [])).2 := by
  refine ⟨_, rfl, fun gw hgw => ⟨selects_withRouter _ rfl gw [], fun hconverged => ?_⟩⟩
  obtain ⟨m, hm, -⟩ := hconverged.1
  have hnone : (reconcile .succeed (reconcile .succeed started (withRouter gwA [])).1
      (withRouter gw [])).2.routes4 = [] := by
    rcases List.mem_cons.mp hgw with rfl | hgw
    · decide
    · obtain rfl := List.mem_singleton.mp hgw
      decide
  rw [hnone] at hm
  cases hm

end V4WithV6Nh.FreebsdDaemon
