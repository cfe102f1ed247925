import V4WithV6Nh.DefaultRoute
import V4WithV6Nh.MacProvenance
import V4WithV6Nh.PollLoop

/-!
# The Main Loops of the FreeBSD and the macOS Daemon

Both daemons poll their routing socket, which tells of interfaces and routes, and of nothing
else: a change of the default router list, of the neighbours or of a file is found at the end
of the interval. The FreeBSD daemon writes to the socket it waits on, and goes back to waiting
after a message of its own. The macOS daemon lets arp(8) write and does not look at the message.

## Main results

* `FreebsdDaemon.route_at_rest`, `MacosDaemon.arp_at_rest`: what a daemon that waits
  with nothing outstanding has installed is the route, or the MAC, by the interfaces and routes
  as they are.
* `FreebsdDaemon.no_echo_pass`: however many messages the FreeBSD daemon sends, it makes no
  pass because of them.
* `daemons_end`: after SIGTERM both make at most one more pass, withdraw, and end.
-/

namespace V4WithV6Nh

/-! ### The FreeBSD daemon -/

namespace FreebsdDaemon

/-- The interfaces and the routes of a world. -/
def World.told (w : World) : (Text → ℕ) × List RtMsg × List RtMsg :=
  (w.ifNametoindex, w.routes6, w.routes4)

section Passes

variable {calls : Calls} {d : Daemon} {gw : IPv6} {w : World}

/-- A route message changes nothing or leaves its route, if it is no deletion. -/
theorem routeMsg_cases (calls : Calls) (ifindex : ℕ) (gw : IPv6) {type : RtmType}
    (htype : type ≠ .delete) (routes4 : List RtMsg) :
    (routeMsg calls ifindex type gw routes4).2 = routes4 ∨
      routeRow ifindex gw ∈ (routeMsg calls ifindex type gw routes4).2 := by
  rw [routeMsg.eq_def]
  split
  · exact .inl rfl
  · cases type with
    | add =>
        simp only [rtmAdd]
        split
        · exact .inr (by simp)
        · split <;> exact .inl rfl
    | change =>
        simp only [rtmChange]
        split
        · exact .inr (mem_upsertFirst_self _ _ _)
        · exact .inl rfl
    | delete => exact absurd rfl htype

/-- What a pass may do: it keeps the arguments and the index, and leaves the IPv4 routes as they
are, or the route of the daemon in them. -/
structure Installs (d : Daemon) (gw : IPv6) (w : World) (r : Daemon × World) : Prop where
  world : r.2 = { w with routes4 := r.2.routes4 }
  cfg : r.1.cfg = d.cfg
  ifindex : r.1.ifindex = d.ifindex
  routes4 : r.2.routes4 = w.routes4 ∨ routeRow d.ifindex gw ∈ r.2.routes4

theorem installs_install (calls : Calls) (d : Daemon) (gw : IPv6) (w : World) :
    Installs d gw w (install calls d gw w) := by
  have hanswer : ∀ r : ℤ × List RtMsg, (r.2 = w.routes4 ∨ routeRow d.ifindex gw ∈ r.2) →
      Installs d gw w (if r.1 < 0 then (d, { w with routes4 := r.2 })
        else ({ d with routeInstalled := true, installedGw := gw },
          { w with routes4 := r.2 })) := by
    intro r hr
    split <;> exact ⟨rfl, rfl, rfl, hr⟩
  have hsent : ∀ type : RtmType, type ≠ .delete → ∀ routes4,
      (routes4 = w.routes4 ∨ routeRow d.ifindex gw ∈ routes4) →
      ((routeMsg calls d.ifindex type gw routes4).2 = w.routes4 ∨
        routeRow d.ifindex gw ∈ (routeMsg calls d.ifindex type gw routes4).2) := by
    intro type htype routes4 hroutes4
    rcases routeMsg_cases calls d.ifindex gw htype routes4 with hsame | hmem
    · rw [hsame]
      exact hroutes4
    · exact .inr hmem
  have htype : (if d.routeInstalled then RtmType.change else .add) ≠ .delete := by
    cases d.routeInstalled <;> decide
  rw [install]
  split
  · exact ⟨rfl, rfl, rfl, .inl rfl⟩
  · generalize (if d.routeInstalled then RtmType.change else .add) = type at htype ⊢
    have hfirst := hsent type htype w.routes4 (.inl rfl)
    simp only
    refine hanswer _ ?_
    split
    · exact hsent .change (by decide) _ hfirst
    · exact hfirst

/-- A route that is installed behind an installation is the one asked for, unless the request to
change the route was refused. -/
theorem install_gw (h : (install calls d gw w).1.routeInstalled = true) :
    (install calls d gw w).1.installedGw = gw ∨
      (routeMsg calls d.ifindex .change gw w.routes4).1 < 0 := by
  -- a request that is refused leaves the flag as it is
  have hadded : d.routeInstalled = false → ∀ r : ℤ × List RtMsg,
      (if r.1 < 0 then (d, { w with routes4 := r.2 })
        else ({ d with routeInstalled := true, installedGw := gw },
          { w with routes4 := r.2 })).1.routeInstalled = true →
      (if r.1 < 0 then (d, { w with routes4 := r.2 })
        else ({ d with routeInstalled := true, installedGw := gw },
          { w with routes4 := r.2 })).1.installedGw = gw := by
    intro hflag r hr
    by_cases hrefused : r.1 < 0
    · rw [if_pos hrefused, hflag] at hr
      cases hr
    · rw [if_neg hrefused]
  rw [install] at h ⊢
  by_cases hsame : d.routeInstalled ∧ d.installedGw = gw
  · rw [if_pos hsame]
    exact .inl hsame.2
  · rw [if_neg hsame] at h ⊢
    cases hflag : d.routeInstalled with
    | true =>
        rw [hflag] at h
        simp only [not_true, false_and, if_false, if_true] at h ⊢
        split
        · rename_i hrefused
          exact .inr hrefused
        · exact .inl rfl
    | false =>
        rw [hflag] at h
        exact .inl (hadded hflag _ h)

theorem withdraw_world : (withdraw calls d w).2 =
    { w with routes4 := (withdraw calls d w).2.routes4 } := by
  rw [withdraw]
  split <;> rfl

theorem withdraw_routeInstalled : (withdraw calls d w).1.routeInstalled = false := by
  rw [withdraw]
  split
  · rename_i h
    exact (Bool.not_eq_true _).mp h
  · rfl

/-- A pass writes the IPv4 routes only. -/
theorem reconcile_world : (reconcile calls d w).2 =
    { w with routes4 := (reconcile calls d w).2.routes4 } := by
  rw [reconcile]
  simp only
  split
  · rfl
  · split
    · exact withdraw_world
    · split
      · exact (installs_install ..).world
      · exact withdraw_world

/-- **A pass that leaves a route installed** has found its interface, its gate open and a next
hop; the routes are as they were, or have the route of the daemon; and this is the route that it
remembers, unless it was refused. -/
theorem of_routeInstalled (h : (reconcile calls d w).1.routeInstalled = true) :
    (reconcile calls d w).1.cfg = d.cfg ∧
    (reconcile calls d w).1.ifindex = w.ifNametoindex d.cfg.ifname ∧
    w.ifNametoindex d.cfg.ifname ≠ 0 ∧ gate calls d.cfg w = true ∧
    ∃ gw, nextHop calls (w.ifNametoindex d.cfg.ifname) w = some gw ∧
      ((reconcile calls d w).2.routes4 = w.routes4 ∨
        routeRow (w.ifNametoindex d.cfg.ifname) gw ∈ (reconcile calls d w).2.routes4) ∧
      ((reconcile calls d w).1.installedGw = gw ∨
        (routeMsg calls (w.ifNametoindex d.cfg.ifname) .change gw w.routes4).1 < 0) := by
  rw [reconcile] at h ⊢
  simp only at h ⊢
  split at h
  · cases h
  · rename_i hindex
    rw [if_neg hindex]
    split at h
    · rw [withdraw_routeInstalled] at h
      cases h
    · rename_i hgate
      rw [if_neg hgate]
      split at h
      · rename_i gw hgw
        have hinstalls :=
          installs_install calls { d with ifindex := w.ifNametoindex d.cfg.ifname } gw w
        simp only [hgw]
        exact ⟨hinstalls.cfg, hinstalls.ifindex, hindex, not_not.mp hgate, gw, rfl,
          hinstalls.routes4, install_gw h⟩
      · rw [withdraw_routeInstalled] at h
        cases h

end Passes

/-- The main loop of the daemon. -/
def poller : Poller Calls Daemon World ((Text → ℕ) × List RtMsg × List RtMsg) where
  pass := reconcile
  stop := withdraw
  watched := World.told
  written w r := { w with routes4 := r.routes4 }
  skipsOwn := true
  reloads := true
  written_self _ := rfl
  watched_pass calls d w r h := by
    rw [World.told, World.told, Prod.mk.injEq, Prod.mk.injEq] at h
    rw [reconcile_world]
    simp only [World.told, h]

/-- The daemon holds the route that it is to hold, by the interfaces and routes as they are and by
the default router list and the file as the last pass has read them. With `-r` its own route may
have taken the place of the sentinel route. The gateway is another one if the last pass was
refused the change. -/
structure Current (calls : Calls) (d : Daemon) (gw : IPv6) (now read : World) : Prop where
  index : d.ifindex = now.ifNametoindex d.cfg.ifname
  present : d.ifindex ≠ 0
  file : ∀ f, d.cfg.sentinelFile = some f → sentinelInFile calls read.files f = true
  route : d.cfg.requireSentinelRoute = true →
    sentinelInFib now.routes4 = true ∨ routeRow d.ifindex gw ∈ now.routes4
  hop : nextHop calls d.ifindex { now with drlist := read.drlist } = some gw
  installed : d.installedGw = gw ∨ (routeMsg calls d.ifindex .change gw read.routes4).1 < 0

section Loop

variable {cfg : Config} {ifindex : ℕ} {w : World} {es es' : List (Poller.Event Calls World)}
  {s : Poller.State Daemon World ((Text → ℕ) × List RtMsg × List RtMsg)}

/-- What a gate that is open has found. -/
theorem of_gate {calls : Calls} (hgate : gate calls cfg w = true) :
    (∀ f, cfg.sentinelFile = some f → sentinelInFile calls w.files f = true) ∧
    (cfg.requireSentinelRoute = true → sentinelInFib w.routes4 = true) := by
  obtain ⟨hfile, hfib⟩ := Bool.and_eq_true_iff.mp hgate
  refine ⟨fun f hf => ?_, fun hrequire => ?_⟩
  · rwa [hf] at hfile
  · rw [hrequire, Bool.not_true, Bool.false_or, sysctl] at hfib
    split at hfib
    · cases hfib
    · exact hfib

/-- **What the FreeBSD daemon has installed at rest** is the route by the interfaces and routes as
they are. -/
theorem route_at_rest
    (hrun : Run poller.Step (poller.start (Daemon.fresh cfg ifindex) w) es s)
    (hrest : s.Resting poller) (hinstalled : s.daemon.routeInstalled = true) :
    ∃ calls gw, Poller.lastCalls es = some calls ∧
      Current calls s.daemon gw s.world s.lastRead := by
  obtain ⟨calls, d, hcalls, hdaemon, htold⟩ := Poller.resting_pass hrun hrest
  change s.daemon = (reconcile calls d s.lastRead).1 at hdaemon
  change s.world.told = (reconcile calls d s.lastRead).2.told at htold
  rw [reconcile_world, World.told, World.told, Prod.mk.injEq, Prod.mk.injEq] at htold
  obtain ⟨hnames, hroutes6, hroutes4⟩ := htold
  rw [hdaemon] at hinstalled
  obtain ⟨hcfg, hindex, hpresent, hgate, gw, hhop, hleft, hgw⟩ := of_routeInstalled hinstalled
  obtain ⟨hfile, hfib⟩ := of_gate hgate
  refine ⟨calls, gw, hcalls, ?_⟩
  rw [hdaemon]
  refine ⟨by rw [hindex, hcfg, hnames], by rwa [hindex], by rwa [hcfg], ?_, ?_, by rwa [hindex]⟩
  · rw [hcfg, hindex, hroutes4]
    intro hrequire
    rcases hleft with hsame | hmem
    · rw [hsame]
      exact .inl (hfib hrequire)
    · exact .inr hmem
  · have hsame : s.world.routes6 = s.lastRead.routes6 := hroutes6
    rw [hindex, ← hhop, nextHop, nextHop]
    simp only [hsame]

/-- What comes from outside and rouses the daemon. -/
def isStimulus : Poller.Event Calls World → Bool
  | .change _ _ | .message | .terminate | .hangup | .timeout => true
  | _ => false

/-- **No pass because of an echo**: however many messages the daemon sends to the socket that
it waits on, its passes are at most one more than the messages of others, the ends of the
interval and the signals. -/
theorem no_echo_pass (hrun : Run poller.Step (poller.start (Daemon.fresh cfg ifindex) w) es s) :
    es.countP Poller.Event.isBegin ≤ 1 + es.countP isStimulus := by
  have hstimuli : ∀ es : List (Poller.Event Calls World),
      (es.map poller.stimuli).sum = es.countP isStimulus := by
    intro es
    induction es with
    | nil => rfl
    | cons e es ih =>
        rw [List.map_cons, List.sum_cons, ih, List.countP_cons, Nat.add_comm]
        cases e <;> rfl
  exact hstimuli es ▸ Poller.passes_le hrun

end Loop

/-- The daemon after its first pass, when it has read its own message. -/
def rested : Poller.State Daemon World ((Text → ℕ) × List RtMsg × List RtMsg) where
  pos := .entering
  running := true
  queue := []
  dropped := false
  daemon := (reconcile .succeed started (withRouter gwA [])).1
  world := poller.written (withRouter gwA []) (reconcile .succeed started (withRouter gwA [])).2
  lastRead := withRouter gwA []
  seen := (reconcile .succeed started (withRouter gwA [])).2.told
  untouched := true
  still := true

theorem rested_run : Run poller.Step (poller.start started (withRouter gwA []))
    [.begin, .pass .succeed (withRouter gwA []) 1, .test, .poll, .read, .test] rested :=
  .cons ⟨rfl, rfl⟩ (.cons ⟨rfl, rfl, fun _ => rfl, fun _ => rfl, rfl⟩ (.cons ⟨rfl, rfl⟩
    (.cons ⟨rfl, rfl⟩ (.cons ⟨.own, [], rfl, rfl, rfl⟩ (Run.single ⟨rfl, rfl⟩)))))

/-- The route of the first pass is the one to hold. -/
theorem rested_route : ∃ calls gw,
    Poller.lastCalls [.begin, .pass .succeed (withRouter gwA []) 1, .test, .poll, .read, .test] =
      some calls ∧ Current calls rested.daemon gw rested.world rested.lastRead :=
  route_at_rest rested_run ⟨.inl rfl, rfl, rfl⟩ (by decide)

/-- Its own message has made no pass. -/
theorem rested_passes :
    let es : List (Poller.Event Calls World) :=
      [.begin, .pass .succeed (withRouter gwA []) 1, .test, .poll, .read, .test]
    es.countP Poller.Event.isBegin ≤ 1 + es.countP isStimulus :=
  no_echo_pass rested_run

end FreebsdDaemon

/-! ### The macOS daemon -/

namespace MacosDaemon

/-- The interfaces and the routes of a world. -/
def World.told (w : World) : (Text → ℕ) × List RtMsg × List RtMsg :=
  (w.ifNametoindex, w.routes6, w.routes4)

section Passes

variable {A : Arp} {calls : Calls} {d : Daemon} {mac : Mac} {w : World}

theorem install_keeps (A : Arp) (calls : Calls) (d : Daemon) (mac : Mac) (w : World) :
    (install A calls d mac w).1.cfg = d.cfg ∧
    (install A calls d mac w).2 = { w with arp := (install A calls d mac w).2.arp } := by
  rw [install]
  split
  · exact ⟨rfl, rfl⟩
  · split <;> exact ⟨rfl, rfl⟩

/-- The entry that is installed behind an installation has the MAC, unless arp(8) has failed. -/
theorem install_mac (A : Arp) (calls : Calls) (d : Daemon) (mac : Mac) (w : World) :
    (install A calls d mac w).1.installedMac = mac ∨ calls.arpS = true := by
  rw [install]
  split
  · rename_i hplace
    exact .inl hplace.2.1
  · split
    · rename_i hfails
      exact .inr hfails
    · exact .inl rfl

theorem withdraw_keeps (A : Arp) (calls : Calls) (d : Daemon) (w : World) :
    (withdraw A calls d w).1.arpInstalled = false ∧
    (withdraw A calls d w).2 = { w with arp := (withdraw A calls d w).2.arp } := by
  rw [withdraw]
  split
  · rename_i h
    exact ⟨(Bool.not_eq_true _).mp h, rfl⟩
  · refine ⟨rfl, ?_⟩
    simp only
    split <;> rfl

/-- A pass writes the ARP table and the files only. -/
theorem reconcile_world : (reconcile A calls d w).2 =
    { w with
      arp := (reconcile A calls d w).2.arp
      files := (reconcile A calls d w).2.files } := by
  have hinstall : ∀ mac, (install A calls d mac w).2 =
      { w with
        arp := (install A calls d mac w).2.arp
        files := (install A calls d mac w).2.files } := by
    intro mac
    rw [(install_keeps A calls d mac w).2]
  have hwithdraw : (withdraw A calls d w).2 =
      { w with
        arp := (withdraw A calls d w).2.arp
        files := (withdraw A calls d w).2.files } := by
    rw [(withdraw_keeps A calls d w).2]
  rw [reconcile]
  split
  · rfl
  · split
    · exact hwithdraw
    · split
      · rename_i mac _
        simp only
        split
        · rw [hinstall mac]
        · exact hinstall mac
      · split
        · exact hinstall _
        · exact hwithdraw

/-- **A pass that leaves an entry installed** has found its interface, its gate open and a MAC
to pin; and this is the MAC that it remembers, unless arp(8) has failed. -/
theorem of_arpInstalled (h : (reconcile A calls d w).1.arpInstalled = true) :
    (reconcile A calls d w).1.cfg = d.cfg ∧ w.ifNametoindex d.cfg.ifname ≠ 0 ∧
    gate calls d.cfg w = true ∧
    ∃ mac, (resolvedMac calls d.cfg w).or (storedMac calls d.cfg w) = some mac ∧
      ((reconcile A calls d w).1.installedMac = mac ∨ calls.arpS = true) := by
  have hindex : w.ifNametoindex d.cfg.ifname ≠ 0 := by
    intro hzero
    rw [reconcile, if_pos hzero] at h
    cases h
  have hpass := (Prod.mk.inj (reconcile_action (A := A) (d := d) calls hindex)).1
  cases haction : action calls d.cfg w with
  | remove =>
      rw [haction] at hpass
      rw [hpass, (withdraw_keeps ..).1] at h
      cases h
  | pin mac =>
      rw [haction] at hpass
      obtain ⟨hgate, hsource⟩ := of_pinAction_eq_pin haction
      refine ⟨by rw [hpass, (install_keeps ..).1], hindex, hgate, mac, hsource, ?_⟩
      rw [hpass]
      exact install_mac A calls d mac w

end Passes

/-- The main loop of the daemon. -/
def poller (A : Arp) : Poller Calls Daemon World ((Text → ℕ) × List RtMsg × List RtMsg) where
  pass := reconcile A
  stop := withdraw A
  watched := World.told
  written w r := { w with arp := r.arp, files := r.files }
  skipsOwn := false
  reloads := false
  written_self _ := rfl
  watched_pass calls d w r h := by
    rw [World.told, World.told, Prod.mk.injEq, Prod.mk.injEq] at h
    rw [reconcile_world]
    simp only [World.told, h]

/-- The daemon holds the entry that it is to hold, by the interfaces and routes as they are and by
the neighbours, the addresses and the files as the last pass has read them: its MAC is that of the
default router, or else the stored one. It is another one if arp(8) has failed. -/
structure Current (calls : Calls) (d : Daemon) (mac : Mac) (now read : World) : Prop where
  present : now.ifNametoindex d.cfg.ifname ≠ 0
  file : ∀ f, d.cfg.sentinelFile = some f → sentinelInFile calls read.files d.cfg f = true
  route : d.cfg.requireSentinelRoute = true → sentinelInFib d.cfg.sentinelAddr now.routes4 = true
  source : (resolvedMac calls d.cfg { now with neighbors6 := read.neighbors6 }).or
    (storedMac calls d.cfg read) = some mac
  installed : d.installedMac = mac ∨ calls.arpS = true

section Loop

variable {A : Arp} {cfg : Config} {w : World} {es : List (Poller.Event Calls World)}
  {s : Poller.State Daemon World ((Text → ℕ) × List RtMsg × List RtMsg)}

/-- What gates that are open have found. -/
theorem of_gate {calls : Calls} (hgate : gate calls cfg w = true) :
    (∀ f, cfg.sentinelFile = some f → sentinelInFile calls w.files cfg f = true) ∧
    (cfg.requireSentinelRoute = true → sentinelInFib cfg.sentinelAddr w.routes4 = true) := by
  obtain ⟨hfile, hfib⟩ := Bool.and_eq_true_iff.mp hgate
  refine ⟨fun f hf => ?_, fun hrequire => ?_⟩
  · rwa [hf] at hfile
  · rw [hrequire, Bool.not_true, Bool.false_or, sysctl] at hfib
    split at hfib
    · cases hfib
    · exact hfib

/-- **What the macOS daemon has installed at rest** is the entry by the interfaces and routes as
they are, with the MAC of the neighbour table or of the cache. -/
theorem arp_at_rest
    (hrun : Run (poller A).Step ((poller A).start (Daemon.fresh cfg) w) es s)
    (hrest : s.Resting (poller A)) (hinstalled : s.daemon.arpInstalled = true) :
    ∃ calls mac, Poller.lastCalls es = some calls ∧
      Current calls s.daemon mac s.world s.lastRead := by
  obtain ⟨calls, d, hcalls, hdaemon, htold⟩ := Poller.resting_pass hrun hrest
  change s.daemon = (reconcile A calls d s.lastRead).1 at hdaemon
  change s.world.told = (reconcile A calls d s.lastRead).2.told at htold
  rw [reconcile_world, World.told, World.told, Prod.mk.injEq, Prod.mk.injEq] at htold
  obtain ⟨hnames, hroutes6, hroutes4⟩ := htold
  rw [hdaemon] at hinstalled
  obtain ⟨hcfg, hindex, hgate, mac, hsource, hmac⟩ := of_arpInstalled hinstalled
  obtain ⟨hfile, hfib⟩ := of_gate hgate
  refine ⟨calls, mac, hcalls, ?_⟩
  rw [hdaemon]
  refine ⟨by rwa [hcfg, hnames], by rwa [hcfg], by rwa [hcfg, hroutes4], ?_, hmac⟩
  rw [hcfg, ← hsource, resolvedMac, resolvedMac]
  simp only [hnames, hroutes6]

end Loop

/-- The daemon after its first pass. -/
def rested : Poller.State Daemon World ((Text → ℕ) × List RtMsg × List RtMsg) where
  pos := .entering
  running := true
  queue := []
  dropped := false
  daemon := afterPass.1
  world := (poller plainArp).written withRouter afterPass.2
  lastRead := withRouter
  seen := afterPass.2.told
  untouched := true
  still := true

theorem rested_run : Run (poller plainArp).Step ((poller plainArp).start (.fresh en0) withRouter)
    [.begin, .pass .succeed withRouter 0, .test] rested :=
  .cons ⟨rfl, rfl⟩ (.cons ⟨rfl, rfl, fun _ => rfl, fun _ => rfl, rfl⟩ (Run.single ⟨rfl, rfl⟩))

/-- The entry of the first pass is the one to hold. -/
theorem rested_arp : ∃ calls mac,
    Poller.lastCalls [.begin, .pass .succeed withRouter 0, .test] = some calls ∧
      Current calls rested.daemon mac rested.world rested.lastRead :=
  arp_at_rest rested_run ⟨.inl rfl, rfl, rfl⟩ (by decide)

end MacosDaemon

/-! ### SIGTERM -/

/-- What the end leaves: without a route it touches nothing; with one, and if the kernel answers
the deletion, its gateway is that of no default route, if there was one default route at most. -/
structure FreebsdDaemon.Cleared (calls : Calls) (d : Daemon) (w w' : World) : Prop where
  untouched : d.routeInstalled = false → w' = w
  gone : d.routeInstalled = true → calls.write .delete = none →
    (w.routes4.filter RtMsg.isDefault4).length ≤ 1 → ∀ m ∈ w'.routes4, m.isDefault4 = true →
      m.gateway ≠ (routeRow d.ifindex d.installedGw).gateway

theorem FreebsdDaemon.cleared_withdraw (calls : Calls) (d : Daemon) (w : World) :
    Cleared calls d w (withdraw calls d w).2 where
  untouched h := by rw [withdraw, if_pos (by simp [h])]
  gone hinstalled hwrite huniq m hm hdefault hgateway := by
    rw [withdraw, if_neg (by simp [hinstalled]), routeMsg, hwrite] at hm
    simp only [rtmDelete] at hm
    set isIt : RtMsg → Bool := fun m =>
      m.isDefault4 && decide (m.gateway = (routeRow d.ifindex d.installedGw).gateway)
    have hit : isIt m = true := by
      rw [Bool.and_eq_true]
      exact ⟨hdefault, decide_eq_true hgateway⟩
    have hle : (w.routes4.filter isIt).length ≤ 1 :=
      (List.Sublist.length_le (List.monotone_filter_right _ fun x hx =>
        (Bool.and_eq_true_iff.mp hx).1)).trans huniq
    split at hm
    · rw [eraseP_eq_filter hle] at hm
      simp [hit] at hm
    · rename_i hnone
      exact hnone (List.any_eq_true.mpr ⟨m, hm, hit⟩)

/-- What the end leaves: without an entry it touches nothing; with one, and if arp(8) finds the
interface and does not fail, there is no entry for the sentinel on it. -/
structure MacosDaemon.Cleared (calls : Calls) (d : Daemon) (w w' : World) : Prop where
  untouched : d.arpInstalled = false → w' = w
  gone : d.arpInstalled = true → w.ifNametoindex d.cfg.ifname ≠ 0 → calls.arpD = false →
    ∀ x ∈ w'.arp, ¬ x.IsFor (w.ifNametoindex d.cfg.ifname) d.cfg.sentinelAddr

theorem MacosDaemon.cleared_withdraw (A : Arp) (calls : Calls) (d : Daemon) (w : World) :
    Cleared calls d w (withdraw A calls d w).2 where
  untouched h := by rw [withdraw, if_pos (by simp [h])]
  gone hinstalled hindex hdelete x hx := by
    rw [withdraw, if_neg (by simp [hinstalled])] at hx
    simp only [hindex, hdelete, Bool.false_eq_true, or_self, if_false] at hx
    exact ((A.mem_delete ..).mp hx).2

/-- **Both daemons end** after SIGTERM: whatever the others do, they begin at most one more pass
and take at most six more steps; until they are done they have a step to take, and when they
are done they have withdrawn. -/
theorem daemons_end {A : Arp} {cfg : FreebsdDaemon.Config} {ifindex : ℕ}
    {w : FreebsdDaemon.World} {es es' : List (Poller.Event FreebsdDaemon.Calls FreebsdDaemon.World)}
    {s : Poller.State FreebsdDaemon.Daemon FreebsdDaemon.World
      ((Text → ℕ) × List RtMsg × List RtMsg)}
    {cfg' : MacosDaemon.Config} {w' : MacosDaemon.World}
    {fs fs' : List (Poller.Event MacosDaemon.Calls MacosDaemon.World)}
    {s' : Poller.State MacosDaemon.Daemon MacosDaemon.World
      ((Text → ℕ) × List RtMsg × List RtMsg)}
    (hfreebsd : Run FreebsdDaemon.poller.Step
      (FreebsdDaemon.poller.start (FreebsdDaemon.Daemon.fresh cfg ifindex) w)
      (es ++ .terminate :: es') s)
    (hmacos : Run (MacosDaemon.poller A).Step
      ((MacosDaemon.poller A).start (MacosDaemon.Daemon.fresh cfg') w')
      (fs ++ .terminate :: fs') s') :
    (es'.countP Poller.Event.isBegin ≤ 1 ∧ es'.countP Poller.Event.isOwn ≤ 6 ∧
      ((s.pos = .done ∧ s.daemon.routeInstalled = false ∧ ∃ calls t t',
          FreebsdDaemon.poller.Stops (FreebsdDaemon.poller.start (.fresh cfg ifindex) w)
            (es ++ .terminate :: es') s calls t t' ∧
          FreebsdDaemon.Cleared calls t.daemon t.world t'.world) ∨
        ∃ e t, e.isOwn = true ∧ FreebsdDaemon.poller.Step s e t)) ∧
    (fs'.countP Poller.Event.isBegin ≤ 1 ∧ fs'.countP Poller.Event.isOwn ≤ 6 ∧
      ((s'.pos = .done ∧ s'.daemon.arpInstalled = false ∧ ∃ calls t t',
          (MacosDaemon.poller A).Stops ((MacosDaemon.poller A).start (.fresh cfg') w')
            (fs ++ .terminate :: fs') s' calls t t' ∧
          MacosDaemon.Cleared calls t.daemon t.world t'.world) ∨
        ∃ e t, e.isOwn = true ∧ (MacosDaemon.poller A).Step s' e t)) := by
  obtain ⟨hbegins, howns, hend⟩ := Poller.loop_ends .succeed hfreebsd
  obtain ⟨hbegins', howns', hend'⟩ := Poller.loop_ends .succeed hmacos
  refine ⟨⟨hbegins, howns, hend.imp_left fun hdone => ?_⟩, hbegins', howns',
    hend'.imp_left fun hdone => ?_⟩
  · obtain ⟨calls, t, t', hstops, hdaemon⟩ := Poller.exists_stops hfreebsd hdone
    obtain ⟨-, -, -, -, ⟨-, rfl⟩, -⟩ := id hstops
    exact ⟨hdone, hdaemon ▸ FreebsdDaemon.withdraw_routeInstalled, calls, t, _, hstops,
      FreebsdDaemon.cleared_withdraw calls t.daemon t.world⟩
  · obtain ⟨calls, t, t', hstops, hdaemon⟩ := Poller.exists_stops hmacos hdone
    obtain ⟨-, -, -, -, ⟨-, rfl⟩, -⟩ := id hstops
    exact ⟨hdone, hdaemon ▸ (MacosDaemon.withdraw_keeps ..).1, calls, t, _, hstops,
      MacosDaemon.cleared_withdraw A calls t.daemon t.world⟩

/-- The daemons when a signal has come during their first pass. -/
def FreebsdDaemon.ended : Poller.State FreebsdDaemon.Daemon FreebsdDaemon.World
    ((Text → ℕ) × List RtMsg × List RtMsg) :=
  { FreebsdDaemon.rested with
    pos := .done
    running := false
    daemon := (FreebsdDaemon.withdraw .succeed FreebsdDaemon.rested.daemon
      FreebsdDaemon.rested.world).1
    world := (FreebsdDaemon.withdraw .succeed FreebsdDaemon.rested.daemon
      FreebsdDaemon.rested.world).2 }

def MacosDaemon.ended : Poller.State MacosDaemon.Daemon MacosDaemon.World
    ((Text → ℕ) × List RtMsg × List RtMsg) :=
  { MacosDaemon.rested with
    pos := .done
    running := false
    daemon := (MacosDaemon.withdraw plainArp .succeed MacosDaemon.rested.daemon
      MacosDaemon.rested.world).1
    world := (MacosDaemon.withdraw plainArp .succeed MacosDaemon.rested.daemon
      MacosDaemon.rested.world).2 }

/-- They have ended as they should. -/
theorem both_ended :
    let es : List (Poller.Event FreebsdDaemon.Calls FreebsdDaemon.World) :=
      [.pass .succeed (FreebsdDaemon.withRouter FreebsdDaemon.gwA []) 0, .test, .stop .succeed]
    let fs : List (Poller.Event MacosDaemon.Calls MacosDaemon.World) :=
      [.pass .succeed MacosDaemon.withRouter 0, .test, .stop .succeed]
    (es.countP Poller.Event.isBegin ≤ 1 ∧ es.countP Poller.Event.isOwn ≤ 6 ∧
      ((FreebsdDaemon.ended.pos = .done ∧ FreebsdDaemon.ended.daemon.routeInstalled = false ∧
        ∃ calls t t', FreebsdDaemon.poller.Stops
            (FreebsdDaemon.poller.start (.fresh FreebsdDaemon.unconditional 2)
              (FreebsdDaemon.withRouter FreebsdDaemon.gwA []))
            ([.begin] ++ .terminate :: es) FreebsdDaemon.ended calls t t' ∧
          FreebsdDaemon.Cleared calls t.daemon t.world t'.world) ∨
        ∃ e t, e.isOwn = true ∧ FreebsdDaemon.poller.Step FreebsdDaemon.ended e t)) ∧
    (fs.countP Poller.Event.isBegin ≤ 1 ∧ fs.countP Poller.Event.isOwn ≤ 6 ∧
      ((MacosDaemon.ended.pos = .done ∧ MacosDaemon.ended.daemon.arpInstalled = false ∧
        ∃ calls t t', (MacosDaemon.poller plainArp).Stops
            ((MacosDaemon.poller plainArp).start (.fresh MacosDaemon.en0) MacosDaemon.withRouter)
            ([.begin] ++ .terminate :: fs) MacosDaemon.ended calls t t' ∧
          MacosDaemon.Cleared calls t.daemon t.world t'.world) ∨
        ∃ e t, e.isOwn = true ∧ (MacosDaemon.poller plainArp).Step MacosDaemon.ended e t)) := by
  refine @daemons_end plainArp FreebsdDaemon.unconditional 2
    (FreebsdDaemon.withRouter FreebsdDaemon.gwA []) [.begin] _ _ MacosDaemon.en0
    MacosDaemon.withRouter [.begin] _ _ ?_ ?_
  · exact .cons ⟨rfl, rfl⟩ (.cons rfl (.cons ⟨rfl, rfl, fun _ => rfl, fun _ => rfl, rfl⟩
      (.cons ⟨rfl, rfl⟩ (Run.single ⟨rfl, rfl⟩))))
  · exact .cons ⟨rfl, rfl⟩ (.cons rfl (.cons ⟨rfl, rfl, fun _ => rfl, fun _ => rfl, rfl⟩
      (.cons ⟨rfl, rfl⟩ (Run.single ⟨rfl, rfl⟩))))

end V4WithV6Nh
