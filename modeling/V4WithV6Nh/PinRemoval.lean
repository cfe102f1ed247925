import V4WithV6Nh.PinnedDaemons
import V4WithV6Nh.RouterCache

/-!
# What Becomes of a Pinned Entry without a Router

Both daemons say that they remove the entry when no usable router remains. A pass that
finds no IPv6 default route reaches its withdrawal only if the gate is closed or nothing
is stored for the own MAC; every pass that resolved a router under the same own MAC, in
this or an earlier lifetime, has stored one. And the withdrawal acts on the installed flag,
which does not outlive the process.

## Main results

* `always_removed_iff`: the histories, over any number of lifetimes, in which every pass
  without a default route leaves no entry of the daemon are those in which each such pass
  ceases in the sense of `PinTable.Ceases`.
* `MacosDaemon.stays_pinned`, `WindowsDaemon.stays_pinned`: once a router has been resolved
  under an own MAC, no pass without a default route under it reaches the withdrawal, in any
  lifetime that finds the map as it was left.
* `pin_outlives_router`: a router that disappears, after which the entry stays.
-/

namespace V4WithV6Nh

/-! ### macOS -/

namespace MacosDaemon

variable {A : Arp} {calls : Calls} {d : Daemon} {w : World}

/-- The pass runs on a present interface without an IPv6 default route, and no call of it
fails. -/
def Routerless (calls : Calls) (d : Daemon) (w : World) : Prop :=
  calls = .succeed ∧ w.ifNametoindex d.cfg.ifname ≠ 0 ∧
    findDefaultRouter (w.ifNametoindex d.cfg.ifname) w.routes6 = none

/-- A pass without a default route leaves no permanent entry that the daemon put there. -/
def Removes (A : Arp) (calls : Calls) (d : Daemon) (w : World) : Prop :=
  Routerless calls d w →
    ¬ PinnedByDaemon (w.ifNametoindex d.cfg.ifname) d.cfg.sentinelAddr
      (reconcile A calls d w).2.arp

/-- A pass without a default route removes with the flag set, or there is no entry of the
daemon and the pass pins no stored MAC. -/
def Ceases (A : Arp) (calls : Calls) (d : Daemon) (w : World) : Prop :=
  Routerless calls d w →
    (d.table A w).Ceases d.record w.arp
      (pinAction (gate calls d.cfg w) none (storedMac calls d.cfg w))

/-- What a pass without a default route makes of the ARP table. -/
theorem Routerless.reconcile_eq (h : Routerless calls d w) :
    (reconcile A calls d w).2.arp =
      ((d.table A w).perform d.record w.arp
        (pinAction (gate calls d.cfg w) none (storedMac calls d.cfg w))).2 := by
  obtain ⟨rfl, hif, hnone⟩ := h
  have hresolved : resolvedMac .succeed d.cfg w = none := by
    change (findDefaultRouter _ w.routes6).bind _ = none
    rw [hnone]
    rfl
  have haction : action .succeed d.cfg w =
      pinAction (gate .succeed d.cfg w) none (storedMac .succeed d.cfg w) := by
    rw [action, hresolved]
  rw [← haction]
  exact congrArg Prod.snd (reconcile_succeed hif)

/-- **Exactly when one pass removes.** -/
theorem removes_iff : Removes A calls d w ↔ Ceases A calls d w := by
  refine forall_congr' fun h => ?_
  rw [h.reconcile_eq]
  exact (d.table A w).not_ours_perform_iff _ _ _

/-- A pass stores a mapping or leaves the files alone. -/
theorem reconcile_files :
    (reconcile A calls d w).2.files = w.files ∨
      ∃ host mac, (reconcile A calls d w).2.files = routerCachePut calls w.files host mac := by
  rw [reconcile]
  by_cases hif : w.ifNametoindex d.cfg.ifname = 0
  · rw [if_pos hif]
    exact Or.inl rfl
  · rw [if_neg hif]
    by_cases hgate : gate calls d.cfg w = true
    · rw [if_neg (not_not.mpr hgate)]
      split
      · rename_i mac _
        split
        · rename_i host _
          refine Or.inr ⟨host, mac, ?_⟩
          simp only [install_files]
        · exact Or.inl (install_files calls)
      · split
        · exact Or.inl (install_files calls)
        · exact Or.inl (withdraw_files calls)
    · rw [if_pos hgate]
      exact Or.inl (withdraw_files calls)

/-- A router MAC is stored for an own MAC. -/
def Stored (host : Mac) (w : World) : Prop :=
  (routerCacheLookup .succeed w.files host).isSome = true

/-- A pass whose calls succeed keeps a mapping. -/
theorem stored_reconcile {host : Mac} (h : Stored host w) :
    Stored host (reconcile A .succeed d w).2 := by
  rcases reconcile_files (A := A) (d := d) (w := w) with hsame | ⟨host', mac, hput⟩
  · rw [Stored, hsame]
    exact h
  · rw [Stored, hput, routerCacheLookup_put]
    split
    · rfl
    · exact h

/-- **Once stored, always pinned**: a pass without a default route, with an open gate and
an own MAC that had a mapping at the start of the history, leaves the table showing a
permanent entry. -/
theorem stays_pinned {host : Mac} {s : Option Daemon × World}
    {es : List (LifeEvent Config Calls)} (hstored : Stored host s.2)
    (hrun : Run (fun s e s' => (program A).Turn s e s' ∧
      Program.Meets (· = .succeed) (fun w w' => w'.files = w.files) s e s') s es (some d, w))
    (hrouterless : Routerless .succeed d w) (hgate : gate .succeed d.cfg w = true)
    (hhost : hostMac .succeed d.cfg w = some host) :
    ∃ mac, (d.table A w).shows mac (reconcile A .succeed d w).2.arp = true := by
  have hpass : ∀ calls d w, calls = .succeed → Stored host w →
      Stored host (reconcile A calls d w).2 := by
    rintro calls d w rfl h
    exact stored_reconcile h
  have hstop : ∀ calls d w, Stored host w → Stored host (withdraw A calls d w).2 := by
    intro calls d w h
    rw [Stored, withdraw_files]
    exact h
  have hothers : ∀ w w' : World, w'.files = w.files → Stored host w → Stored host w' := by
    intro w w' hsame h
    rw [Stored, hsame]
    exact h
  have hend : Stored host w := Program.world_invariant hpass hstop hothers hrun hstored
  obtain ⟨mac, hmac⟩ := Option.isSome_iff_exists.mp hend
  have haction : pinAction (gate .succeed d.cfg w) none (storedMac .succeed d.cfg w) =
      .pin mac := by
    have hlookup : storedMac .succeed d.cfg w = some mac := by
      rw [storedMac, hhost]
      exact hmac
    rw [pinAction, hgate, hlookup]
    rfl
  refine ⟨mac, ?_⟩
  rw [hrouterless.reconcile_eq, haction]
  exact (d.table A w).shows_perform_pin _ _ _

end MacosDaemon

/-! ### Windows -/

namespace WindowsDaemon

variable {I : IpHelper} {calls : Calls} {d : Daemon} {w : World}

/-- The pass runs on the interface `luid`, which is present and has no IPv6 default route,
and no call of it fails. -/
def Routerless (calls : Calls) (d : Daemon) (w : World) (luid : ℕ) : Prop :=
  calls = .succeed ∧ resolveLuid d w = some luid ∧ (w.luidToIndex luid).isSome = true ∧
    findDefaultRouter luid w.forward6 = none

/-- A pass without a default route leaves no permanent entry that the service put there. -/
def Removes (I : IpHelper) (calls : Calls) (d : Daemon) (w : World) : Prop :=
  ∀ luid, Routerless calls d w luid → ¬ PinnedByDaemon luid (reconcile I calls d w).2.net4

/-- A pass without a default route removes with the flag set, or there is no entry of the
service and the pass pins no stored MAC. -/
def Ceases (I : IpHelper) (calls : Calls) (d : Daemon) (w : World) : Prop :=
  ∀ luid, Routerless calls d w luid →
    (pinTable I luid).Ceases d.record w.net4
      (pinAction (gate calls d.cfg luid w) none (storedMac calls luid w))

/-- What a pass without a default route makes of the table. -/
theorem Routerless.reconcile_eq {luid : ℕ} (h : Routerless calls d w luid) :
    (reconcile I calls d w).2.net4 =
      ((pinTable I luid).perform d.record w.net4
        (pinAction (gate calls d.cfg luid w) none (storedMac calls luid w))).2 := by
  obtain ⟨rfl, hluid, hpresent, hnone⟩ := h
  obtain ⟨index, hindex⟩ := Option.isSome_iff_exists.mp hpresent
  have hresolved : resolvedMac .succeed luid w = none := by
    change (findDefaultRouter luid w.forward6).bind _ = none
    rw [hnone]
    rfl
  have hon : reconcile I .succeed d w =
      reconcileOn I .succeed { d with luid := some luid } luid w := by
    rw [reconcile, hluid]
    simp only [hindex]
  have haction : action .succeed d.cfg luid w =
      pinAction (gate .succeed d.cfg luid w) none (storedMac .succeed luid w) := by
    rw [action, hresolved]
  rw [hon, ← haction]
  exact congrArg Prod.snd reconcileOn_succeed

/-- **Exactly when one pass removes.** -/
theorem removes_iff : Removes I calls d w ↔ Ceases I calls d w := by
  refine forall_congr' fun luid => forall_congr' fun h => ?_
  rw [h.reconcile_eq]
  exact (pinTable I luid).not_ours_perform_iff _ _ _

/-- A pass stores a mapping or leaves the registry alone. -/
theorem reconcile_registry :
    (reconcile I calls d w).2.registry = w.registry ∨
      ∃ host mac,
        (reconcile I calls d w).2.registry = routerCachePut calls w.registry host mac := by
  have hon : ∀ d luid, (reconcileOn I calls d luid w).2.registry = w.registry ∨
      ∃ host mac, (reconcileOn I calls d luid w).2.registry =
        routerCachePut calls w.registry host mac := by
    intro d luid
    rw [reconcileOn]
    by_cases hgate : gate calls d.cfg luid w = true
    · rw [if_neg (not_not.mpr hgate)]
      split
      · rename_i mac _
        split
        · rename_i host _
          refine Or.inr ⟨host, mac, ?_⟩
          simp only [install_registry]
        · exact Or.inl (install_registry calls)
      · split
        · exact Or.inl (install_registry calls)
        · exact Or.inl (withdraw_registry calls)
    · rw [if_pos hgate]
      exact Or.inl (withdraw_registry calls)
  rw [reconcile]
  split
  · exact Or.inl rfl
  · split
    · exact Or.inl rfl
    · exact hon _ _

/-- A router MAC is stored for an own MAC. -/
def Stored (host : Mac) (w : World) : Prop :=
  (routerCacheLookup .succeed w.registry host).isSome = true

/-- A pass whose calls succeed keeps a mapping. -/
theorem stored_reconcile {host : Mac} (h : Stored host w) :
    Stored host (reconcile I .succeed d w).2 := by
  rcases reconcile_registry (I := I) (d := d) (w := w) with hsame | ⟨host', mac, hput⟩
  · rw [Stored, hsame]
    exact h
  · rw [Stored, hput, routerCacheLookup_put]
    split
    · rfl
    · exact h

/-- **Once stored, always pinned**: a pass without a default route, with an open gate and
an own MAC that had a mapping at the start of the history, leaves the table showing a
permanent entry. -/
theorem stays_pinned {host : Mac} {luid : ℕ} {s : Option Daemon × World}
    {es : List (LifeEvent Config Calls)} (hstored : Stored host s.2)
    (hrun : Run (fun s e s' => (program I).Turn s e s' ∧
      Program.Meets (· = .succeed) (fun w w' => w'.registry = w.registry) s e s') s es
        (some d, w))
    (hrouterless : Routerless .succeed d w luid) (hgate : gate .succeed d.cfg luid w = true)
    (hhost : interfaceMac .succeed w luid = some host) :
    ∃ mac, (pinTable I luid).shows mac (reconcile I .succeed d w).2.net4 = true := by
  have hpass : ∀ calls d w, calls = .succeed → Stored host w →
      Stored host (reconcile I calls d w).2 := by
    rintro calls d w rfl h
    exact stored_reconcile h
  have hstop : ∀ calls d w, Stored host w → Stored host (shutdown I calls d w) := by
    intro calls d w h
    rw [shutdown]
    split
    · rw [Stored, withdraw_registry]
      exact h
    · exact h
  have hothers : ∀ w w' : World, w'.registry = w.registry → Stored host w →
      Stored host w' := by
    intro w w' hsame h
    rw [Stored, hsame]
    exact h
  have hend : Stored host w := Program.world_invariant hpass hstop hothers hrun hstored
  obtain ⟨mac, hmac⟩ := Option.isSome_iff_exists.mp hend
  have haction : pinAction (gate .succeed d.cfg luid w) none (storedMac .succeed luid w) =
      .pin mac := by
    have hlookup : storedMac .succeed luid w = some mac := by
      rw [storedMac, hhost]
      exact hmac
    rw [pinAction, hgate, hlookup]
    rfl
  refine ⟨mac, ?_⟩
  rw [hrouterless.reconcile_eq, haction]
  exact (pinTable I luid).shows_perform_pin _ _ _

end WindowsDaemon

/-! ### Histories -/

/-- **Exactly which histories remove the entry with the router**, for both daemons, from
any state and over any number of lifetimes. -/
theorem always_removed_iff (A : Arp) (I : IpHelper) :
    (∀ (s s' : Option MacosDaemon.Daemon × MacosDaemon.World)
        (es : List (LifeEvent MacosDaemon.Config MacosDaemon.Calls)),
      Run (fun s e s' => (MacosDaemon.program A).Turn s e s' ∧
          Program.AtPass (MacosDaemon.Removes A) s e) s es s' ↔
        Run (fun s e s' => (MacosDaemon.program A).Turn s e s' ∧
          Program.AtPass (MacosDaemon.Ceases A) s e) s es s') ∧
    (∀ (s s' : Option WindowsDaemon.Daemon × WindowsDaemon.World)
        (es : List (LifeEvent WindowsDaemon.Config WindowsDaemon.Calls)),
      Run (fun s e s' => (WindowsDaemon.program I).Turn s e s' ∧
          Program.AtPass (WindowsDaemon.Removes I) s e) s es s' ↔
        Run (fun s e s' => (WindowsDaemon.program I).Turn s e s' ∧
          Program.AtPass (WindowsDaemon.Ceases I) s e) s es s') :=
  ⟨fun _ _ _ => Program.always_pass_iff fun _ _ _ => MacosDaemon.removes_iff,
    fun _ _ _ => Program.always_pass_iff fun _ _ _ => WindowsDaemon.removes_iff⟩

/-! ### A router that disappears -/

/-- An arp(8) that keeps the other entries in their order. -/
def plainArp : Arp where
  entry ifindex addr mac :=
    ⟨RTM_VERSION, RTF_UP ||| RTF_STATIC, ifindex, some (.inet addr), some (.link mac.toList), none⟩
  set ifindex addr mac table :=
    ⟨⟨RTM_VERSION, RTF_UP ||| RTF_STATIC, ifindex, some (.inet addr), some (.link mac.toList),
      none⟩, true⟩ :: table.filter fun x => ¬ x.IsFor ifindex addr
  delete ifindex addr table := table.filter fun x => ¬ x.IsFor ifindex addr
  entry_spec ifindex addr mac := by
    have hstatic : (RTF_UP ||| RTF_STATIC) &&& RTF_STATIC ≠ 0 := by decide
    exact ⟨rfl, rfl, hstatic, rfl, rfl⟩
  mem_set := by simp
  mem_delete := by simp

/-- Calls that keep the other rows in their order. -/
def plainIpHelper : IpHelper where
  delete row table := table.filter fun x => ¬ x.SameKey row
  create row table := ⟨row, true⟩ :: table
  set row table := ⟨row, true⟩ :: table.filter fun x => ¬ x.SameKey row
  mem_delete := by simp
  mem_create := by simp
  mem_set := by simp

/-- The MAC of the router in the runs below. -/
def routerMac : Mac := ⟨[0xb8, 0x69, 0xf4, 0x1b, 0xea, 0x7b], rfl⟩

namespace MacosDaemon

/-- The daemon on `en0` without a gate. -/
def en0 : Config := ⟨"en0".toList, false, none, "192.0.0.11".toList, 0xc000000b, by decide⟩

/-- `en0` with a default router `fe80::1`. -/
def withRouter : World where
  ifNametoindex _ := 4
  ifaddrs := [⟨"en0".toList, some (.link [2, 0, 0, 0, 0, 1])⟩]
  routes6 := [⟨RTM_VERSION, RTF_UP ||| RTF_GATEWAY, 4, some (.inet6 0),
    some (.inet6 0xfe800000000000000000000000000001#128), none⟩]
  neighbors6 := [⟨RTM_VERSION, RTF_UP, 4,
    some (.inet6 0xfe800000000000000000000000000001#128), some (.link routerMac.toList), none⟩]
  routes4 := []
  arp := []
  files _ := none

/-- The daemon and the world after a first pass. -/
def afterPass : Daemon × World := reconcile plainArp .succeed (Daemon.fresh en0) withRouter

/-- The world when the router and its default route are gone. -/
def withoutRouter : World := { afterPass.2 with routes6 := [], neighbors6 := [] }

end MacosDaemon

namespace WindowsDaemon

/-- The service on an interface without a gate. -/
def ethernet : Config := ⟨"Ethernet".toList, false⟩

/-- The interface with a default router `fe80::1`. -/
def withRouter : World where
  aliasToLuid _ := some 6
  indexToLuid _ := none
  luidToIndex _ := some 4
  ifEntry _ := some [2, 0, 0, 0, 0, 1]
  forward6 := [⟨6, .ipv6 0, 0, .ipv6 0xfe800000000000000000000000000001#128, 256⟩]
  forward4 := []
  net6 := [⟨6, .ipv6 0xfe800000000000000000000000000001#128, routerMac.toList, .reachable⟩]
  net4 := []
  registry _ := none

/-- The service and the world after a first pass. -/
def afterPass : Daemon × World :=
  reconcile plainIpHelper .succeed (Daemon.fresh ethernet) withRouter

/-- The world when the router and its default route are gone. -/
def withoutRouter : World := { afterPass.2 with forward6 := [], net6 := [] }

end WindowsDaemon

/-- **The entry outlives the router**: each daemon starts and pins the router's MAC, the
router and its default route disappear, and the next pass, whose calls succeed, leaves the
entry. -/
theorem pin_outlives_router :
    (Run (MacosDaemon.program plainArp).Turn (none, MacosDaemon.withRouter)
        [.start MacosDaemon.en0, .pass .succeed, .others]
        (some MacosDaemon.afterPass.1, MacosDaemon.withoutRouter) ∧
      ¬ MacosDaemon.Removes plainArp .succeed MacosDaemon.afterPass.1
        MacosDaemon.withoutRouter) ∧
    (Run (WindowsDaemon.program plainIpHelper).Turn (none, WindowsDaemon.withRouter)
        [.start WindowsDaemon.ethernet, .pass .succeed, .others]
        (some WindowsDaemon.afterPass.1, WindowsDaemon.withoutRouter) ∧
      ¬ WindowsDaemon.Removes plainIpHelper .succeed WindowsDaemon.afterPass.1
        WindowsDaemon.withoutRouter) := by
  refine ⟨⟨?_, fun h => ?_⟩, ?_, fun h => ?_⟩
  · exact .cons rfl (.cons rfl (Run.single ⟨rfl, fun _ hx _ => hx⟩))
  · exact h ⟨rfl, by decide, by decide⟩ (by decide)
  · exact .cons rfl (.cons rfl (Run.single ⟨rfl, fun _ hx _ => hx⟩))
  · exact h 6 ⟨rfl, by decide, by decide, by decide⟩ (by decide)

end V4WithV6Nh
