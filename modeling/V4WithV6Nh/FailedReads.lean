import V4WithV6Nh.DefaultRoute

/-!
# Failed Reads of the FreeBSD Daemon

A pass reads up to three kernel tables: the FIB for the sentinel, the default router list,
and the IPv6 routes if that list names no router. Each reader folds a failed `sysctl` and
an empty table into one answer, so a pass takes what it could not read for what is not
there. The comment on `static_default_router` wants that route consulted "only when that
list is empty"; a list that could not be read counts as one.

## Main results

* `reconcile_eq_of_readFails`: a pass with a failed read withdraws, or installs the gateway
  of a static default route.
* `unchanged_iff_staticKeeps`: while the sentinel and the router in use are there, such a
  pass leaves the route alone exactly when a static default route stands in for the router
  list, with the same gateway or one that the kernel does not change to.
-/

namespace V4WithV6Nh.FreebsdDaemon

/-- The tables that a pass reads, in order. With `-r` there is no state file to stop it
before the FIB. -/
def tablesRead (calls : Calls) (d : Daemon) (w : World) : List Table :=
  let ifindex := w.ifNametoindex d.cfg.ifname
  if ifindex = 0 then []
  else
    (if d.cfg.requireSentinelRoute then [.routes4] else []) ++
      if gate calls d.cfg w then
        .drlist ::
          if selectRouter ifindex (sysctl calls .drlist w.drlist) = none then [.routes6] else []
      else []

/-- A read that the pass makes fails. -/
def ReadFails (calls : Calls) (d : Daemon) (w : World) : Prop :=
  ∃ table ∈ tablesRead calls d w, calls.sysctl table = true

/-- The sentinel is there, as the gate sees it if it can read, and so is the router of the
installed route: in the default router list, or as the gateway of a static default route. -/
def StillThere (d : Daemon) (w : World) : Prop :=
  gate .succeed d.cfg w = true ∧ d.routeInstalled = true ∧
    ((∃ dr ∈ w.drlist, dr.ifIndex = w.ifNametoindex d.cfg.ifname ∧ dr.rtaddr = d.installedGw) ∨
      ∃ rtm ∈ w.routes6,
        staticRouterOf (w.ifNametoindex d.cfg.ifname) rtm = some d.installedGw)

/-- The default route and what the daemon remembers of it are as before. -/
def Unchanged (d : Daemon) (w : World) (after : Daemon × World) : Prop :=
  after.2.routes4 = w.routes4 ∧ after.1.routeInstalled = d.routeInstalled ∧
    after.1.installedGw = d.installedGw

/-- The kernel answers `RTM_CHANGE` of the default route with an error. -/
def RefusesChange (calls : Calls) (w : World) : Prop :=
  (∃ e, calls.write .change = some e ∧ 0 < e) ∨
    calls.write .change = none ∧ default4 w.routes4 = none

/-- A static default route stands in for the router list, and the route of the daemon
stays: it has that gateway, or the kernel does not change it. -/
def StaticKeeps (calls : Calls) (d : Daemon) (w : World) : Prop :=
  gate calls d.cfg w = true ∧ ∃ gw,
    staticDefaultRouter (w.ifNametoindex d.cfg.ifname) (sysctl calls .routes6 w.routes6) =
        some gw ∧
      (gw = d.installedGw ∨ RefusesChange calls w)

section Passes

variable {calls : Calls} {d : Daemon} {w : World} {gw : IPv6}

/-- A table that could not be read has no rows. -/
theorem sysctl_of_fails {α : Type} {table : Table} (h : calls.sysctl table = true)
    (rows : List α) : sysctl calls table rows = [] :=
  if_pos h

/-- Without the FIB the gate of `-r` is closed. -/
theorem gate_of_routes4_fails (hr : d.cfg.requireSentinelRoute = true)
    (h : calls.sysctl .routes4 = true) : gate calls d.cfg w = false := by
  rw [gate, sysctl_of_fails h, hr]
  exact Bool.and_false _

/-- Behind an open gate, a failed read leaves the router list without a router: it is the
read of that list, or the next one, which is made for want of a router. -/
theorem selectRouter_of_readFails (hread : ReadFails calls d w)
    (hgate : gate calls d.cfg w = true) :
    selectRouter (w.ifNametoindex d.cfg.ifname) (sysctl calls .drlist w.drlist) = none := by
  obtain ⟨table, htable, hfails⟩ := hread
  rw [tablesRead] at htable
  simp only [hgate, if_true] at htable
  split at htable
  · cases htable
  rcases List.mem_append.mp htable with h4 | h6
  · split at h4
    · rename_i hr
      obtain rfl := List.mem_singleton.mp h4
      rw [gate_of_routes4_fails hr hfails] at hgate
      cases hgate
    · cases h4
  · rcases List.mem_cons.mp h6 with rfl | h6
    · rw [sysctl_of_fails hfails]
      rfl
    · split at h6
      · assumption
      · cases h6

/-- A pass that reads a table has found its interface. -/
theorem ifindex_ne_zero_of_readFails (hread : ReadFails calls d w) :
    w.ifNametoindex d.cfg.ifname ≠ 0 := by
  intro hzero
  obtain ⟨table, htable, -⟩ := hread
  rw [tablesRead] at htable
  simp only [hzero, if_true] at htable
  cases htable

/-- **What a pass with a failed read does**: behind a closed gate, and without a static
default route, it withdraws; else it installs the gateway of that route. -/
theorem reconcile_eq_of_readFails (hread : ReadFails calls d w) :
    reconcile calls d w =
      let d' := { d with ifindex := w.ifNametoindex d.cfg.ifname }
      if gate calls d.cfg w then
        (staticDefaultRouter d'.ifindex (sysctl calls .routes6 w.routes6)).elim
          (withdraw calls d' w) fun gw => install calls d' gw w
      else withdraw calls d' w := by
  have hindex := ifindex_ne_zero_of_readFails hread
  cases hgate : gate calls d.cfg w with
  | false => simp [reconcile, hindex, hgate]
  | true =>
      have hselect := selectRouter_of_readFails hread hgate
      simp only [reconcile, if_neg hindex, hgate, not_true_eq_false, if_false, if_true, nextHop,
        hselect, Option.none_or]
      cases staticDefaultRouter (w.ifNametoindex d.cfg.ifname)
          (sysctl calls .routes6 w.routes6) with
      | none => rfl
      | some gw => rfl

/-- A withdrawal shows in the memory of a daemon that has installed its route. -/
theorem not_unchanged_withdraw (hflag : d.routeInstalled = true) :
    ¬ Unchanged d w (withdraw calls d w) := by
  rintro ⟨-, hsame, -⟩
  have hnot : ¬ ¬ d.routeInstalled = true := not_not.mpr hflag
  rw [withdraw, if_neg hnot, hflag] at hsame
  cases hsame

/-- A change that the kernel refuses leaves its routes alone. -/
theorem routeMsg_change_of_refuses (h : RefusesChange calls w) (ifindex : ℕ) (gw : IPv6) :
    (routeMsg calls ifindex .change gw w.routes4).1 < 0 ∧
      (routeMsg calls ifindex .change gw w.routes4).2 = w.routes4 := by
  rcases h with ⟨e, he, hpos⟩ | ⟨hsent, hdefault⟩
  · simp only [routeMsg, he, and_true]
    omega
  · simp only [routeMsg, hsent, rtmChange_of_eq_none hdefault, and_true]
    decide

/-- One that the kernel does not refuse is a success for the daemon. -/
theorem routeMsg_change_of_not_refuses (h : ¬ RefusesChange calls w) (ifindex : ℕ) :
    ¬ (routeMsg calls ifindex .change gw w.routes4).1 < 0 := by
  rw [RefusesChange, not_or] at h
  obtain ⟨hwrite, hthere⟩ := h
  cases hsent : calls.write .change with
  | some e =>
      have hzero : ¬ 0 < e := fun hpos => hwrite ⟨e, hsent, hpos⟩
      simp only [routeMsg, hsent]
      omega
  | none =>
      have hsome : (default4 w.routes4).isSome :=
        Option.isSome_iff_ne_none.mpr fun hnone => hthere ⟨hsent, hnone⟩
      simp only [routeMsg, hsent, rtmChange_of_isSome hsome]
      decide

/-- An installation over an installed route changes nothing exactly when it is for the same
gateway or the kernel refuses it. -/
theorem unchanged_install_iff (hflag : d.routeInstalled = true) :
    Unchanged d w (install calls d gw w) ↔ gw = d.installedGw ∨ RefusesChange calls w := by
  by_cases hgw : d.installedGw = gw
  · rw [install, if_pos ⟨hflag, hgw⟩]
    exact iff_of_true ⟨rfl, rfl, rfl⟩ (Or.inl hgw.symm)
  · have hnot : ¬ (d.routeInstalled = true ∧ d.installedGw = gw) := fun h => hgw h.2
    rw [install, if_neg hnot]
    simp only [hflag, if_true, not_true_eq_false, false_and, if_false]
    by_cases hrefuses : RefusesChange calls w
    · obtain ⟨hneg, hsame⟩ := routeMsg_change_of_refuses hrefuses d.ifindex gw
      rw [if_pos hneg]
      exact iff_of_true ⟨hsame, rfl, rfl⟩ (Or.inr hrefuses)
    · rw [if_neg (routeMsg_change_of_not_refuses hrefuses d.ifindex)]
      refine iff_of_false (fun h => hgw h.2.2.symm) ?_
      rintro (h | h)
      · exact hgw h.symm
      · exact hrefuses h

/-- **Exactly when a failed read changes nothing**: for every daemon and kernel state, in
every mode, a pass in which a read of a kernel table fails, while the sentinel and the
router in use are there, leaves the default route and the daemon's memory of it alone
exactly when a static default route keeps them. -/
theorem unchanged_iff_staticKeeps (hread : ReadFails calls d w) (hthere : StillThere d w) :
    Unchanged d w (reconcile calls d w) ↔ StaticKeeps calls d w := by
  have hflag := hthere.2.1
  rw [reconcile_eq_of_readFails hread, StaticKeeps]
  cases hgate : gate calls d.cfg w with
  | false =>
      refine iff_of_false ?_ fun h => Bool.false_ne_true h.1
      exact not_unchanged_withdraw (d := { d with ifindex := _ }) hflag
  | true =>
      simp only [if_true, true_and]
      cases hstatic : staticDefaultRouter (w.ifNametoindex d.cfg.ifname)
          (sysctl calls .routes6 w.routes6) with
      | none =>
          refine iff_of_false (not_unchanged_withdraw (d := { d with ifindex := _ }) hflag) ?_
          rintro ⟨gw, hgw, -⟩
          cases hgw
      | some gw =>
          simp only [Option.some.injEq, exists_eq_left']
          exact unchanged_install_iff (d := { d with ifindex := _ }) hflag

end Passes

/-! ### A router list that could not be read -/

/-- One table cannot be read. -/
def Calls.failing (table : Table) : Calls :=
  { Calls.succeed with sysctl := fun t => decide (t = table) }

/-- The daemon with its route via the router. -/
def installedVia (gw : IPv6) : Daemon := { started with routeInstalled := true, installedGw := gw }

/-- A static IPv6 default route on `em0`. -/
def staticRow (gw : IPv6) : RtMsg where
  rtmVersion := RTM_VERSION
  rtmFlags := RTF_UP ||| RTF_GATEWAY ||| RTF_STATIC
  rtmIndex := 2
  dst := some (.inet6 0)
  gateway := some (.inet6 gw)
  netmask := some (.inet6 0)

/-- Two sources for the same router. -/
def twoSources : World := { withRouter gwA [routeRow 2 gwA] with routes6 := [staticRow gwA] }

/-- Without the router list, the static default route keeps the route. -/
theorem unchanged_twoSources : Unchanged (installedVia gwA) twoSources
    (reconcile (.failing .drlist) (installedVia gwA) twoSources) := by
  refine (unchanged_iff_staticKeeps ⟨.drlist, ?_, rfl⟩ ⟨rfl, rfl, Or.inr ?_⟩).mpr ⟨rfl, gwA, ?_⟩
  · decide
  · exact ⟨staticRow gwA, List.mem_singleton_self _, by decide⟩
  · exact ⟨by decide, Or.inl rfl⟩

/-- **A failed read is taken for an absent router**: the router of the installed route is in
the router list, or a static default route, the one table that names it cannot be read, and
the daemon withdraws. -/
theorem failed_read_withdraws :
    (ReadFails (.failing .drlist) (installedVia gwA) (withRouter gwA [routeRow 2 gwA]) ∧
      StillThere (installedVia gwA) (withRouter gwA [routeRow 2 gwA]) ∧
      ¬ Unchanged (installedVia gwA) (withRouter gwA [routeRow 2 gwA])
        (reconcile (.failing .drlist) (installedVia gwA) (withRouter gwA [routeRow 2 gwA]))) ∧
    (ReadFails (.failing .routes6) (installedVia gwA) { twoSources with drlist := [] } ∧
      StillThere (installedVia gwA) { twoSources with drlist := [] } ∧
      ¬ Unchanged (installedVia gwA) { twoSources with drlist := [] }
        (reconcile (.failing .routes6) (installedVia gwA) { twoSources with drlist := [] })) := by
  constructor
  · refine ⟨⟨.drlist, by decide, rfl⟩, ⟨rfl, rfl, Or.inl ⟨_, List.mem_singleton_self _, ?_⟩⟩, ?_⟩
    · decide
    · exact fun h => absurd h.2.1 (by decide)
  · refine ⟨⟨.routes6, by decide, rfl⟩, ⟨rfl, rfl, Or.inr ⟨staticRow gwA, ?_, by decide⟩⟩, ?_⟩
    · exact List.mem_singleton_self _
    · exact fun h => absurd h.2.1 (by decide)

end V4WithV6Nh.FreebsdDaemon
