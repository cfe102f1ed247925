import V4WithV6Nh.PinnedDaemons
import V4WithV6Nh.RouterSelectors

/-!
# The BSD Daemons and Other Interfaces

Every scan of the two daemons looks at the rows of the managed interface only, but one:
`sentinel_in_fib` stops at a default route via the sentinel on any interface. So with `-r`
what a pass asks for can depend on another interface, through the gate and not otherwise.

## Main results

* `MacosDaemon.reconcile_request`, `FreebsdDaemon.reconcile_request`: a pass does what it
  asks for.
* `isolated_iff`: in two states that agree on the managed interface a pass asks for the same
  exactly when a sentinel route is on that interface, or on other interfaces in both states
  or in neither, or there is nothing to install.
* `managed_by_other_interface`: both daemons manage an interface because of a route on
  another one.
-/

namespace V4WithV6Nh

/-! ### Rows of an interface -/

section Rows

variable {ifindex : ℕ} {p : RtMsg → Bool} {rows rows' : List RtMsg}

/-- A message is about an interface. -/
def onIf (ifindex : ℕ) (m : RtMsg) : Bool := decide (m.rtmIndex = ifindex)

/-- Two tables agree on the rows of an interface. -/
def SameRows (ifindex : ℕ) (rows rows' : List RtMsg) : Prop :=
  rows.filter (onIf ifindex) = rows'.filter (onIf ifindex)

/-- A row with the property is on the interface. -/
def ShownOn (p : RtMsg → Bool) (ifindex : ℕ) (rows : List RtMsg) : Prop :=
  ∃ m ∈ rows, p m = true ∧ m.rtmIndex = ifindex

/-- A row with the property is on another interface. -/
def ShownElsewhere (p : RtMsg → Bool) (ifindex : ℕ) (rows : List RtMsg) : Prop :=
  ∃ m ∈ rows, p m = true ∧ m.rtmIndex ≠ ifindex

/-- A row is on the interface or elsewhere. -/
theorem any_iff_shown (ifindex : ℕ) :
    rows.any p = true ↔ ShownOn p ifindex rows ∨ ShownElsewhere p ifindex rows := by
  rw [List.any_eq_true]
  constructor
  · rintro ⟨m, hm, hp⟩
    by_cases hif : m.rtmIndex = ifindex
    · exact Or.inl ⟨m, hm, hp, hif⟩
    · exact Or.inr ⟨m, hm, hp, hif⟩
  · rintro (⟨m, hm, hp, -⟩ | ⟨m, hm, hp, -⟩)
    · exact ⟨m, hm, hp⟩
    · exact ⟨m, hm, hp⟩

/-- Tables that agree on an interface show the same on it. -/
theorem SameRows.shownOn_iff (h : SameRows ifindex rows rows') :
    ShownOn p ifindex rows ↔ ShownOn p ifindex rows' := by
  have hmem : ∀ m : RtMsg, m.rtmIndex = ifindex → (m ∈ rows ↔ m ∈ rows') := by
    intro m hif
    have hfilter : m ∈ rows.filter (onIf ifindex) ↔ m ∈ rows'.filter (onIf ifindex) := by
      rw [show rows.filter (onIf ifindex) = _ from h]
    simpa [onIf, hif] using hfilter
  constructor
  · rintro ⟨m, hm, hp, hif⟩
    exact ⟨m, (hmem m hif).mp hm, hp, hif⟩
  · rintro ⟨m, hm, hp, hif⟩
    exact ⟨m, (hmem m hif).mpr hm, hp, hif⟩

/-- A scan of all rows sees the same in both tables exactly when it stops on the interface,
or other interfaces make no difference. -/
theorem SameRows.any_eq_iff (h : SameRows ifindex rows rows') :
    rows.any p = rows'.any p ↔ ShownOn p ifindex rows ∨
      (ShownElsewhere p ifindex rows ↔ ShownElsewhere p ifindex rows') := by
  have hon := h.shownOn_iff (p := p)
  rw [Bool.eq_iff_iff, any_iff_shown ifindex, any_iff_shown ifindex, hon]
  tauto

/-- Tables that cannot be read agree too. -/
theorem SameRows.unreadable (h : SameRows ifindex rows rows') (c : Bool) :
    SameRows ifindex (if c then [] else rows) (if c then [] else rows') := by
  cases c with
  | false => exact h
  | true => rfl

/-- A scan of the rows of the interface sees the same in both tables. -/
theorem SameRows.findSome?_eq {β : Type} {f : RtMsg → Option β} (h : SameRows ifindex rows rows')
    (hf : ∀ m b, f m = some b → m.rtmIndex = ifindex) : rows.findSome? f = rows'.findSome? f :=
  findSome?_eq_of_filter_eq (fun m b hm => decide_eq_true (hf m b hm)) h

end Rows

/-! ### macOS -/

namespace MacosDaemon

variable {A : Arp} {calls : Calls} {d : Daemon} {w w' : World} {ifindex : ℕ}

/-- `install` returns at once. -/
def inPlace (calls : Calls) (d : Daemon) (w : World) (mac : Mac) : Bool :=
  decide (d.arpInstalled ∧ d.installedMac = mac ∧
    arpEntryPresent (w.ifNametoindex d.cfg.ifname) d.cfg.sentinelAddr mac
      (sysctl calls .arp (w.arp.map ArpEntry.msg)))

/-- What a pass asks arp(8) for. -/
def request (calls : Calls) (d : Daemon) (w : World) : Option (PinAction Mac) :=
  if w.ifNametoindex d.cfg.ifname = 0 then none
  else (action calls d.cfg w).request (inPlace calls d w) d.arpInstalled

/-- The memory and the ARP table after what a pass asked for. -/
def carryOut (A : Arp) (calls : Calls) (d : Daemon) (w : World) :
    Option (PinAction Mac) → Daemon × List ArpEntry
  | none => (d, w.arp)
  | some (.pin mac) =>
      if calls.arpS then (d, w.arp)
      else ({ d with arpInstalled := true, installedMac := mac },
        A.set (w.ifNametoindex d.cfg.ifname) d.cfg.sentinelAddr mac w.arp)
  | some .remove =>
      ({ d with arpInstalled := false },
        if calls.arpD then w.arp
        else A.delete (w.ifNametoindex d.cfg.ifname) d.cfg.sentinelAddr w.arp)

/-- `install` asks for the entry unless it is in place. -/
theorem install_request {mac : Mac} :
    ((install A calls d mac w).1, (install A calls d mac w).2.arp) = carryOut A calls d w
      ((PinAction.pin mac).request (inPlace calls d w) d.arpInstalled) := by
  rw [install, PinAction.request, inPlace]
  by_cases hquiet : d.arpInstalled ∧ d.installedMac = mac ∧
      arpEntryPresent (w.ifNametoindex d.cfg.ifname) d.cfg.sentinelAddr mac
        (sysctl calls .arp (w.arp.map ArpEntry.msg))
  · simp only [hquiet, decide_true, if_true, carryOut, and_self]
  · simp only [hquiet, decide_false, Bool.false_eq_true, if_false, carryOut]
    split <;> rfl

/-- `withdraw` asks for the removal of what is installed. -/
theorem withdraw_request (hif : w.ifNametoindex d.cfg.ifname ≠ 0) :
    ((withdraw A calls d w).1, (withdraw A calls d w).2.arp) = carryOut A calls d w
      (PinAction.remove.request (inPlace calls d w) d.arpInstalled) := by
  rw [withdraw, PinAction.request]
  by_cases hflag : d.arpInstalled = true
  · simp only [hflag, not_true_eq_false, if_false, if_true, carryOut, hif, false_or]
    split <;> rfl
  · simp only [hflag, not_false_eq_true, if_true, if_false, carryOut, Bool.false_eq_true]

/-- **A pass does what it asks for.** -/
theorem reconcile_request (hif : w.ifNametoindex d.cfg.ifname ≠ 0) :
    ((reconcile A calls d w).1, (reconcile A calls d w).2.arp) =
      carryOut A calls d w (request calls d w) := by
  rw [reconcile_action calls hif, request, if_neg hif]
  cases action calls d.cfg w with
  | pin mac => exact install_request
  | remove => exact withdraw_request hif

/-- Two states agree on the interface: on its index, its own addresses and its rows in
every table, and on what is stored for its routers. -/
structure SameOn (ifname : Text) (w w' : World) : Prop where
  ifindex : w'.ifNametoindex ifname = w.ifNametoindex ifname
  ifaddrs : ifaceLladdr w'.ifaddrs ifname = ifaceLladdr w.ifaddrs ifname
  routes6 : SameRows (w.ifNametoindex ifname) w.routes6 w'.routes6
  neighbors6 : SameRows (w.ifNametoindex ifname) w.neighbors6 w'.neighbors6
  routes4 : SameRows (w.ifNametoindex ifname) w.routes4 w'.routes4
  arp : SameRows (w.ifNametoindex ifname) (w.arp.map ArpEntry.msg) (w'.arp.map ArpEntry.msg)
  stored : ∀ host, w'.files (routerCachePath host) = w.files (routerCachePath host)

/-- `find_default_router` looks at the rows of the interface only. -/
theorem rtmIndex_of_defaultRouterOf {m : RtMsg} {gw : IPv6}
    (h : defaultRouterOf ifindex m = some gw) : m.rtmIndex = ifindex := by
  rw [defaultRouterOf] at h
  split_ifs at h with _ _ hif
  exact not_not.mp hif

/-- `router_lladdr` looks at the rows of the interface only. -/
theorem rtmIndex_of_lladdrOf {gw : IPv6} {m : RtMsg} {mac : Mac}
    (h : lladdrOf ifindex gw m = some mac) : m.rtmIndex = ifindex := by
  rw [lladdrOf] at h
  split_ifs at h with _ hif
  exact not_not.mp hif

/-- `arp_entry_present` looks at the rows of the interface only. -/
theorem rtmIndex_of_presentIn {addr : InAddr} {mac : Mac} {m : RtMsg} {b : Bool}
    (h : presentIn ifindex addr mac m = some b) : m.rtmIndex = ifindex := by
  rw [presentIn] at h
  split_ifs at h with _ hif
  exact not_not.mp hif

namespace SameOn

variable (h : SameOn d.cfg.ifname w w')

include h

/-- The states resolve the same router. -/
theorem resolvedMac_eq : resolvedMac calls d.cfg w' = resolvedMac calls d.cfg w := by
  have hrouter : findDefaultRouter (w.ifNametoindex d.cfg.ifname)
      (sysctl calls .routes6 w'.routes6) =
        findDefaultRouter (w.ifNametoindex d.cfg.ifname) (sysctl calls .routes6 w.routes6) :=
    ((h.routes6.unreadable _).findSome?_eq fun _ _ => rtmIndex_of_defaultRouterOf).symm
  have hlladdr : ∀ gw, routerLladdr (w.ifNametoindex d.cfg.ifname) gw
      (sysctl calls .neighbors6 w'.neighbors6) =
        routerLladdr (w.ifNametoindex d.cfg.ifname) gw
          (sysctl calls .neighbors6 w.neighbors6) := fun _ =>
    ((h.neighbors6.unreadable _).findSome?_eq fun _ _ => rtmIndex_of_lladdrOf).symm
  simp only [resolvedMac, h.ifindex, hrouter, hlladdr]

/-- The states have the same router stored. -/
theorem storedMac_eq : storedMac calls d.cfg w' = storedMac calls d.cfg w := by
  have hhost : hostMac calls d.cfg w' = hostMac calls d.cfg w := by
    rw [hostMac, hostMac, h.ifaddrs]
  have hlookup : ∀ host, routerCacheLookup calls w'.files host =
      routerCacheLookup calls w.files host := by
    intro host
    rw [routerCacheLookup, routerCacheLookup, fopen, fopen, h.stored]
  rw [storedMac, storedMac, hhost]
  exact congrArg _ (funext hlookup)

/-- The states show the same entry in place. -/
theorem inPlace_eq : inPlace calls d w' = inPlace calls d w := by
  funext mac
  have hpresent : arpEntryPresent (w.ifNametoindex d.cfg.ifname) d.cfg.sentinelAddr mac
      (sysctl calls .arp (w'.arp.map ArpEntry.msg)) =
        arpEntryPresent (w.ifNametoindex d.cfg.ifname) d.cfg.sentinelAddr mac
          (sysctl calls .arp (w.arp.map ArpEntry.msg)) :=
    congrArg (·.getD false)
      ((h.arp.unreadable _).findSome?_eq fun _ _ => rtmIndex_of_presentIn).symm
  rw [inPlace, inPlace, h.ifindex, hpresent]

end SameOn

/-- With `-r` the gate is the scan for the sentinel route. -/
theorem gate_of_requireSentinelRoute (hr : d.cfg.requireSentinelRoute = true) :
    gate calls d.cfg w = sentinelInFib d.cfg.sentinelAddr (sysctl calls .routes4 w.routes4) := by
  have hfile : d.cfg.sentinelFile = none := sentinelFile_of_one_gate d.cfg.one_gate hr
  rw [gate, hfile, hr]
  rfl

/-- Other interfaces do not decide what the pass asks for: the interface is gone, it has a
sentinel route, or others have one in both states or in neither, or no router is resolved
or stored for it. -/
def Undisturbed (calls : Calls) (d : Daemon) (w w' : World) : Prop :=
  let ifindex := w.ifNametoindex d.cfg.ifname
  let sentinel := isSentinelRoute d.cfg.sentinelAddr
  let routes4 := sysctl calls .routes4 w.routes4
  ifindex = 0 ∨ ShownOn sentinel ifindex routes4 ∨
    (ShownElsewhere sentinel ifindex routes4 ↔
      ShownElsewhere sentinel ifindex (sysctl calls .routes4 w'.routes4)) ∨
    (resolvedMac calls d.cfg w).or (storedMac calls d.cfg w) = none

/-- **When the macOS daemon is isolated.** -/
theorem request_eq_iff_undisturbed (hr : d.cfg.requireSentinelRoute = true)
    (h : SameOn d.cfg.ifname w w') :
    request calls d w = request calls d w' ↔ Undisturbed calls d w w' := by
  by_cases hif : w.ifNametoindex d.cfg.ifname = 0
  · rw [request, request, h.ifindex, if_pos hif, if_pos hif]
    exact iff_of_true rfl (Or.inl hif)
  · have hplace : ∀ mac, inPlace calls d w mac = true → d.arpInstalled = true :=
      fun mac hin => (of_decide_eq_true hin).1
    have hrows : SameRows (w.ifNametoindex d.cfg.ifname) (sysctl calls .routes4 w.routes4)
        (sysctl calls .routes4 w'.routes4) := h.routes4.unreadable _
    have hgates := hrows.any_eq_iff (p := isSentinelRoute d.cfg.sentinelAddr)
    rw [request, request, h.ifindex, if_neg hif, if_neg hif, action, action, h.resolvedMac_eq,
      h.storedMac_eq, h.inPlace_eq, request_eq_iff hplace, gate_of_requireSentinelRoute hr,
      gate_of_requireSentinelRoute hr, sentinelInFib, sentinelInFib, hgates, Undisturbed,
      or_iff_right hif, or_assoc]

end MacosDaemon

/-! ### FreeBSD -/

namespace FreebsdDaemon

variable {calls : Calls} {d : Daemon} {w w' : World} {ifindex : ℕ}

/-- `install` returns at once. -/
def inPlace (d : Daemon) (gw : IPv6) : Bool := decide (d.routeInstalled ∧ d.installedGw = gw)

/-- The decision of a pass: what it pins is the next hop of the default route. -/
def action (calls : Calls) (cfg : Config) (ifindex : ℕ) (w : World) : PinAction IPv6 :=
  pinAction (gate calls cfg w) (nextHop calls ifindex w) none

/-- What a pass asks the routing socket for. -/
def request (calls : Calls) (d : Daemon) (w : World) : Option (PinAction IPv6) :=
  if w.ifNametoindex d.cfg.ifname = 0 then none
  else (action calls d.cfg (w.ifNametoindex d.cfg.ifname) w).request (inPlace d)
    d.routeInstalled

/-- The daemon and the world after what a pass asked for. -/
def carryOut (calls : Calls) (d : Daemon) (w : World) :
    Option (PinAction IPv6) → Daemon × World
  | none => (d, w)
  | some (.pin gw) => install calls d gw w
  | some .remove => withdraw calls d w

/-- `install` asks for the route unless it is in place. -/
theorem install_request {gw : IPv6} : install calls d gw w =
    carryOut calls d w ((PinAction.pin gw).request (inPlace d) d.routeInstalled) := by
  rw [PinAction.request, inPlace]
  by_cases hquiet : d.routeInstalled ∧ d.installedGw = gw
  · rw [install, if_pos hquiet, if_pos (decide_eq_true hquiet)]
    rfl
  · rw [if_neg (by simpa using hquiet)]
    rfl

/-- `withdraw` asks for the removal of what is installed. -/
theorem withdraw_request : withdraw calls d w =
    carryOut calls d w (PinAction.remove.request (inPlace d) d.routeInstalled) := by
  rw [PinAction.request]
  by_cases hflag : d.routeInstalled = true
  · rw [if_pos hflag]
    rfl
  · rw [withdraw, if_pos hflag, if_neg hflag]
    rfl

/-- **A pass does what it asks for.** -/
theorem reconcile_request (hif : w.ifNametoindex d.cfg.ifname ≠ 0) :
    reconcile calls d w =
      carryOut calls { d with ifindex := w.ifNametoindex d.cfg.ifname } w (request calls d w) := by
  rw [reconcile, request, if_neg hif, action, pinAction]
  simp only [if_neg hif]
  cases hgate : gate calls d.cfg w with
  | false => exact withdraw_request
  | true =>
      cases hhop : nextHop calls (w.ifNametoindex d.cfg.ifname) w with
      | some gw => exact install_request
      | none => exact withdraw_request

/-- Two states agree on the interface: on its index and its rows in every table. -/
structure SameOn (ifname : Text) (w w' : World) : Prop where
  ifindex : w'.ifNametoindex ifname = w.ifNametoindex ifname
  drlist : w.drlist.filter (fun dr => dr.ifIndex = w.ifNametoindex ifname) =
    w'.drlist.filter fun dr => dr.ifIndex = w.ifNametoindex ifname
  routes6 : SameRows (w.ifNametoindex ifname) w.routes6 w'.routes6
  routes4 : SameRows (w.ifNametoindex ifname) w.routes4 w'.routes4

/-- `static_default_router` looks at the rows of the interface only. -/
theorem rtmIndex_of_staticRouterOf {m : RtMsg} {gw : IPv6}
    (h : staticRouterOf ifindex m = some gw) : m.rtmIndex = ifindex := by
  rw [staticRouterOf] at h
  split_ifs at h with _ hif
  exact not_not.mp hif

/-- The states have the same next hop. -/
theorem SameOn.nextHop_eq (h : SameOn d.cfg.ifname w w') :
    nextHop calls (w.ifNametoindex d.cfg.ifname) w' =
      nextHop calls (w.ifNametoindex d.cfg.ifname) w := by
  have hselect : selectRouter (w.ifNametoindex d.cfg.ifname) (sysctl calls .drlist w'.drlist) =
      selectRouter (w.ifNametoindex d.cfg.ifname) (sysctl calls .drlist w.drlist) := by
    rw [selectRouter_eq, selectRouter_eq, candidates, candidates, sysctl, sysctl]
    split
    · rfl
    · rw [h.drlist]
  have hstatic : staticDefaultRouter (w.ifNametoindex d.cfg.ifname)
      (sysctl calls .routes6 w'.routes6) =
        staticDefaultRouter (w.ifNametoindex d.cfg.ifname) (sysctl calls .routes6 w.routes6) :=
    ((h.routes6.unreadable _).findSome?_eq fun _ _ => rtmIndex_of_staticRouterOf).symm
  rw [nextHop, nextHop, hselect, hstatic]

/-- With `-r` the gate is the scan for the sentinel route. -/
theorem gate_of_requireSentinelRoute (hr : d.cfg.requireSentinelRoute = true) :
    gate calls d.cfg w = sentinelInFib (sysctl calls .routes4 w.routes4) := by
  have hfile : d.cfg.sentinelFile = none := sentinelFile_of_one_gate d.cfg.one_gate hr
  rw [gate, hfile, hr]
  rfl

/-- Other interfaces do not decide what the pass asks for: the interface is gone, it has a
sentinel route, or others have one in both states or in neither, or it has no router. -/
def Undisturbed (calls : Calls) (d : Daemon) (w w' : World) : Prop :=
  let ifindex := w.ifNametoindex d.cfg.ifname
  let routes4 := sysctl calls .routes4 w.routes4
  ifindex = 0 ∨ ShownOn isSentinelRoute ifindex routes4 ∨
    (ShownElsewhere isSentinelRoute ifindex routes4 ↔
      ShownElsewhere isSentinelRoute ifindex (sysctl calls .routes4 w'.routes4)) ∨
    nextHop calls ifindex w = none

/-- **When the FreeBSD daemon is isolated.** -/
theorem request_eq_iff_undisturbed (hr : d.cfg.requireSentinelRoute = true)
    (h : SameOn d.cfg.ifname w w') :
    request calls d w = request calls d w' ↔ Undisturbed calls d w w' := by
  by_cases hif : w.ifNametoindex d.cfg.ifname = 0
  · rw [request, request, h.ifindex, if_pos hif, if_pos hif]
    exact iff_of_true rfl (Or.inl hif)
  · have hplace : ∀ gw, inPlace d gw = true → d.routeInstalled = true :=
      fun gw hin => (of_decide_eq_true hin).1
    have hrows : SameRows (w.ifNametoindex d.cfg.ifname) (sysctl calls .routes4 w.routes4)
        (sysctl calls .routes4 w'.routes4) := h.routes4.unreadable _
    have hgates := hrows.any_eq_iff (p := isSentinelRoute)
    rw [request, request, h.ifindex, if_neg hif, if_neg hif, action, action, h.nextHop_eq,
      request_eq_iff hplace, gate_of_requireSentinelRoute hr, gate_of_requireSentinelRoute hr,
      sentinelInFib, sentinelInFib, hgates, Option.or_none, Undisturbed, or_iff_right hif,
      or_assoc]

end FreebsdDaemon

/-! ### Both daemons -/

/-- **Exactly when other interfaces have no influence**: with `-r`, in any two states that
agree on the managed interface. -/
theorem isolated_iff {mcalls : MacosDaemon.Calls} {md : MacosDaemon.Daemon}
    {mw mw' : MacosDaemon.World} {fcalls : FreebsdDaemon.Calls} {fd : FreebsdDaemon.Daemon}
    {fw fw' : FreebsdDaemon.World} (hmr : md.cfg.requireSentinelRoute = true)
    (hm : MacosDaemon.SameOn md.cfg.ifname mw mw') (hfr : fd.cfg.requireSentinelRoute = true)
    (hf : FreebsdDaemon.SameOn fd.cfg.ifname fw fw') :
    (MacosDaemon.request mcalls md mw = MacosDaemon.request mcalls md mw' ↔
      MacosDaemon.Undisturbed mcalls md mw mw') ∧
    (FreebsdDaemon.request fcalls fd fw = FreebsdDaemon.request fcalls fd fw' ↔
      FreebsdDaemon.Undisturbed fcalls fd fw fw') :=
  ⟨MacosDaemon.request_eq_iff_undisturbed hmr hm, FreebsdDaemon.request_eq_iff_undisturbed hfr hf⟩

/-! ### A route on another interface -/

/-- A default route via the sentinel. -/
def sentinelRoute (ifindex : ℕ) : RtMsg :=
  ⟨RTM_VERSION, RTF_UP ||| RTF_GATEWAY, ifindex, some (.inet 0), some (.inet 0xc000000b#32),
    some (.inet 0)⟩

namespace MacosDaemon

/-- A daemon for `en0` with `-r`. -/
def gated : Daemon :=
  Daemon.fresh ⟨"en0".toList, true, none, "192.0.0.11".toList, 0xc000000b#32, by decide⟩

/-- `en0` with a resolved router. -/
def onLan (routes4 : List RtMsg) : World where
  ifNametoindex _ := 4
  ifaddrs := []
  routes6 := [⟨RTM_VERSION, RTF_UP ||| RTF_GATEWAY, 4, some (.inet6 0),
    some (.inet6 0xfe800000000000000000000000000001#128), none⟩]
  neighbors6 := [⟨RTM_VERSION, RTF_UP, 4,
    some (.inet6 0xfe800000000000000000000000000001#128), some (.link [0, 0, 0, 0, 0, 7]), none⟩]
  routes4 := routes4
  arp := []
  files _ := none

end MacosDaemon

namespace FreebsdDaemon

/-- A daemon for `em0` with `-r`. -/
def gated : Daemon := Daemon.fresh ⟨"em0".toList, true, none, by decide⟩ 4

/-- `em0` with a default router. -/
def onLan (routes4 : List RtMsg) : World where
  ifNametoindex _ := 4
  drlist := [⟨0xfe800000000000000000000000000001#128, 0, 4⟩]
  routes6 := []
  routes4 := routes4
  files _ := none

end FreebsdDaemon

/-- With a sentinel route on the interface, one elsewhere makes no difference. -/
theorem isolated_with_own_route :
    MacosDaemon.request .succeed MacosDaemon.gated (MacosDaemon.onLan [sentinelRoute 4]) =
      MacosDaemon.request .succeed MacosDaemon.gated
        (MacosDaemon.onLan [sentinelRoute 4, sentinelRoute 5]) ∧
    FreebsdDaemon.request .succeed FreebsdDaemon.gated
        (FreebsdDaemon.onLan [sentinelRoute 4]) =
      FreebsdDaemon.request .succeed FreebsdDaemon.gated
        (FreebsdDaemon.onLan [sentinelRoute 4, sentinelRoute 5]) := by
  have hm : MacosDaemon.SameOn "en0".toList (MacosDaemon.onLan [sentinelRoute 4])
      (MacosDaemon.onLan [sentinelRoute 4, sentinelRoute 5]) :=
    ⟨rfl, rfl, rfl, rfl, rfl, rfl, fun _ => rfl⟩
  have hf : FreebsdDaemon.SameOn "em0".toList (FreebsdDaemon.onLan [sentinelRoute 4])
      (FreebsdDaemon.onLan [sentinelRoute 4, sentinelRoute 5]) := ⟨rfl, rfl, rfl, rfl⟩
  have hiff := @isolated_iff .succeed MacosDaemon.gated _ _ .succeed FreebsdDaemon.gated _ _
    rfl hm rfl hf
  exact ⟨hiff.1.mpr (Or.inr (Or.inl ⟨_, List.mem_singleton_self _, rfl, rfl⟩)),
    hiff.2.mpr (Or.inr (Or.inl ⟨_, List.mem_singleton_self _, rfl, rfl⟩))⟩

/-- **A route on another interface decides**: with no sentinel route each daemon leaves the
interface alone, and with one on another interface it manages it. -/
theorem managed_by_other_interface :
    (∃ (d : MacosDaemon.Daemon) (w w' : MacosDaemon.World) (mac : Mac),
      d.cfg.requireSentinelRoute = true ∧ MacosDaemon.SameOn d.cfg.ifname w w' ∧
        MacosDaemon.request .succeed d w = none ∧
        MacosDaemon.request .succeed d w' = some (.pin mac)) ∧
    (∃ (d : FreebsdDaemon.Daemon) (w w' : FreebsdDaemon.World) (gw : IPv6),
      d.cfg.requireSentinelRoute = true ∧ FreebsdDaemon.SameOn d.cfg.ifname w w' ∧
        FreebsdDaemon.request .succeed d w = none ∧
        FreebsdDaemon.request .succeed d w' = some (.pin gw)) :=
  ⟨⟨MacosDaemon.gated, MacosDaemon.onLan [], MacosDaemon.onLan [sentinelRoute 5],
      ⟨[0, 0, 0, 0, 0, 7], rfl⟩, rfl, ⟨rfl, rfl, rfl, rfl, rfl, rfl, fun _ => rfl⟩, rfl, rfl⟩,
    ⟨FreebsdDaemon.gated, FreebsdDaemon.onLan [], FreebsdDaemon.onLan [sentinelRoute 5],
      0xfe800000000000000000000000000001#128, rfl, ⟨rfl, rfl, rfl, rfl⟩, rfl, rfl⟩⟩

end V4WithV6Nh
