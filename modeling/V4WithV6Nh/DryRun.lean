import V4WithV6Nh.PinRemoval
import V4WithV6Nh.StaticNeighbor

/-!
# What the Dry Run of `v4gwd-arp.c` Foretells

With `-n` the macOS daemon reports what it finds and what it would do, and exits.
`dry_run_report` has a decision tree of its own. It differs from that of `reconcile` in two
places: it knows nothing of the router MAC stored for the own MAC, and it goes on behind a
closed gate.

A report announces actions. An announcement holds of a state if the pass of a running daemon
does what it says, for a daemon whose record describes the entry that is there.

* `pinnedTo_of_pin`, `unpinned_of_remove`: what a pass leaves behind, by its decision.
* `announcements_hold_iff`: exactly when all that a report announces is what a pass does.
-/

namespace V4WithV6Nh.MacosDaemon

/-! ### The report -/

/-- A line of the report. -/
inductive ReportLine
  /-- `v4gwd-arp: %s: no such interface`, on stderr. -/
  | noSuchInterface (ifname : Text)
  /-- `v4gwd-arp dry run on %s (ifindex %u)` -/
  | dryRun (ifname : Text) (ifindex : ℕ)
  /-- `sentinel %s in IPv4 FIB`: `yes` or `no (would not manage)` -/
  | inFib (sentinelStr : Text) (yes : Bool)
  /-- `sentinel state file`: `active` or `inactive (would not manage)` -/
  | stateFile (active : Bool)
  /-- `IPv6 default router`: `none on %s (would remove any entry)` -/
  | noRouter (ifname : Text)
  /-- `IPv6 default router`: `%s%%%s` -/
  | router (gw : IPv6) (ifname : Text)
  /-- `router link-layer`: `unresolved in ND cache (would wait)` -/
  | unresolved
  /-- `router link-layer`: `%s (from ND cache)` -/
  | linkLayer (mac : Mac)
  /-- `would install`: `arp -s %s %s ifscope %s` -/
  | wouldInstall (sentinelStr : Text) (mac : Mac) (ifname : Text)
deriving DecidableEq

/-- What the report says about the gates. -/
def gateLines (calls : Calls) (cfg : Config) (w : World) : List ReportLine :=
  (if cfg.requireSentinelRoute then
    [.inFib cfg.sentinelStr (sentinelInFib cfg.sentinelAddr (sysctl calls .routes4 w.routes4))]
  else []) ++
  match cfg.sentinelFile with
  | some sentinelFile => [.stateFile (sentinelInFile calls w.files cfg sentinelFile)]
  | none => []

/-- What it says about the router. -/
def routerLines (calls : Calls) (cfg : Config) (w : World) : List ReportLine :=
  let ifindex := w.ifNametoindex cfg.ifname
  match findDefaultRouter ifindex (sysctl calls .routes6 w.routes6) with
  | none => [.noRouter cfg.ifname]
  | some gw =>
      .router gw cfg.ifname ::
        match routerLladdr ifindex gw (sysctl calls .neighbors6 w.neighbors6) with
        | none => [.unresolved]
        | some mac => [.linkLayer mac, .wouldInstall cfg.sentinelStr mac cfg.ifname]

/-- `dry_run_report`: its result and what it prints. -/
def dryRunReport (calls : Calls) (cfg : Config) (w : World) : ℕ × List ReportLine :=
  let ifindex := w.ifNametoindex cfg.ifname
  if ifindex = 0 then (1, [.noSuchInterface cfg.ifname])
  else
    (0, .dryRun cfg.ifname ifindex :: gateLines calls cfg w ++ routerLines calls cfg w)

/-- What a line says that the daemon would do. -/
inductive Announcement
  | install (mac : Mac)
  | remove
  | wait
  | notManage
deriving DecidableEq

/-- The announcement of a line. -/
def ReportLine.announces : ReportLine → Option Announcement
  | .wouldInstall _ mac _ => some (.install mac)
  | .noRouter _ => some .remove
  | .unresolved => some .wait
  | .inFib _ yes => if yes then none else some .notManage
  | .stateFile active => if active then none else some .notManage
  | _ => none

/-- What the report announces, in order. -/
def announcements (calls : Calls) (cfg : Config) (w : World) : List Announcement :=
  (dryRunReport calls cfg w).2.filterMap ReportLine.announces

/-! ### What a pass does -/

/-- There is no permanent entry for the sentinel. -/
def Unpinned (ifindex : ℕ) (addr : InAddr) (arp : List ArpEntry) : Prop :=
  ∀ x ∈ arp, x.IsFor ifindex addr → ¬ x.IsPermanent

/-- The record of the daemon describes the entry that is there. -/
def Describes (d : Daemon) (w : World) : Prop :=
  match d.record with
  | some mac => PinnedTo (w.ifNametoindex d.cfg.ifname) d.cfg.sentinelAddr mac w.arp
  | none => Unpinned (w.ifNametoindex d.cfg.ifname) d.cfg.sentinelAddr w.arp

/-- The announcement is what a pass of the daemon does whose calls succeed. -/
def Announcement.Holds (A : Arp) (d : Daemon) (w : World) : Announcement → Prop
  | .install mac => PinnedTo (w.ifNametoindex d.cfg.ifname) d.cfg.sentinelAddr mac
      (reconcile A .succeed d w).2.arp
  | .remove | .notManage => Unpinned (w.ifNametoindex d.cfg.ifname) d.cfg.sentinelAddr
      (reconcile A .succeed d w).2.arp
  | .wait => (reconcile A .succeed d w).2.arp = w.arp

section Pass

variable {A : Arp} {d : Daemon} {w : World} {mac mac' : Mac} {ifindex : ℕ} {addr : InAddr}
  {arp : List ArpEntry}

/-- A pinned entry has one MAC. -/
theorem PinnedTo.mac_eq (h : PinnedTo ifindex addr mac arp)
    (h' : arpEntryPresent ifindex addr mac' (arp.map ArpEntry.msg) = true) : mac = mac' := by
  obtain ⟨x, -, -, ⟨-, hgateway⟩, hsole⟩ := h
  obtain ⟨y, hy, hfor, -, hgateway'⟩ := exists_of_arpEntryPresent h'
  rw [hsole y hy (decide_eq_true hfor), hgateway] at hgateway'
  exact List.Vector.toList_injective (Sockaddr.link.inj (Option.some.inj hgateway'))

/-- An entry that is shown is permanent. -/
theorem not_unpinned_of_arpEntryPresent
    (h : arpEntryPresent ifindex addr mac (arp.map ArpEntry.msg) = true) :
    ¬ Unpinned ifindex addr arp := by
  obtain ⟨x, hx, hfor, hpermanent, -⟩ := exists_of_arpEntryPresent h
  exact fun hno => hno x hx hfor hpermanent

/-- A pinned entry is permanent. -/
theorem PinnedTo.not_unpinned (h : PinnedTo ifindex addr mac arp) :
    ¬ Unpinned ifindex addr arp := by
  obtain ⟨x, hx, hfor, ⟨hpermanent, -⟩, -⟩ := h
  exact fun hno => hno x hx (of_decide_eq_true hfor) hpermanent

/-- A record that describes the entry names the MAC that is shown. -/
theorem Describes.record_eq (h : Describes d w)
    (hshown : arpEntryPresent (w.ifNametoindex d.cfg.ifname) d.cfg.sentinelAddr mac
      (w.arp.map ArpEntry.msg) = true) : d.record = some mac := by
  rw [Describes] at h
  cases hrecord : d.record with
  | none =>
      rw [hrecord] at h
      exact absurd h (not_unpinned_of_arpEntryPresent hshown)
  | some mac' =>
      rw [hrecord] at h
      rw [PinnedTo.mac_eq h hshown]

/-- The table after a pass whose calls succeed. -/
theorem arp_reconcile (hif : w.ifNametoindex d.cfg.ifname ≠ 0) :
    (reconcile A .succeed d w).2.arp =
      ((d.table A w).perform d.record w.arp (action .succeed d.cfg w)).2 :=
  congrArg Prod.snd (reconcile_succeed hif)

/-- What a pass leaves that decides to pin. -/
theorem pinnedTo_of_pin (hif : w.ifNametoindex d.cfg.ifname ≠ 0) (h : Describes d w)
    (haction : action .succeed d.cfg w = .pin mac) :
    PinnedTo (w.ifNametoindex d.cfg.ifname) d.cfg.sentinelAddr mac
      (reconcile A .succeed d w).2.arp := by
  rw [arp_reconcile hif, haction]
  refine PinTable.perform_pin_of _ pinnedTo_set fun hshown => ?_
  have hrecord := h.record_eq hshown
  rw [Describes, hrecord] at h
  exact h

/-- What a pass leaves that decides to remove. -/
theorem unpinned_of_remove (hif : w.ifNametoindex d.cfg.ifname ≠ 0) (h : Describes d w)
    (haction : action .succeed d.cfg w = .remove) :
    Unpinned (w.ifNametoindex d.cfg.ifname) d.cfg.sentinelAddr
      (reconcile A .succeed d w).2.arp := by
  rw [arp_reconcile hif, haction, PinTable.perform]
  cases hrecord : d.record with
  | none =>
      rw [Describes, hrecord] at h
      exact h
  | some mac => exact fun x hx hfor => absurd hfor ((A.mem_delete ..).mp hx).2

/-- A pass that decides to pin changes nothing exactly if the entry is in place. -/
theorem unchanged_iff_of_pin (hif : w.ifNametoindex d.cfg.ifname ≠ 0) (h : Describes d w)
    (haction : action .succeed d.cfg w = .pin mac) :
    (reconcile A .succeed d w).2.arp = w.arp ↔
      arpEntryPresent (w.ifNametoindex d.cfg.ifname) d.cfg.sentinelAddr mac
        (w.arp.map ArpEntry.msg) = true := by
  rw [arp_reconcile hif, haction]
  constructor
  · intro hsame
    have hshown := (d.table A w).shows_perform_pin d.record w.arp mac
    rw [hsame] at hshown
    exact hshown
  · intro hshown
    rw [PinTable.perform, if_pos ⟨h.record_eq hshown, hshown⟩]

/-- A pass that decides to remove changes nothing exactly if nothing is recorded. -/
theorem unchanged_iff_of_remove (hif : w.ifNametoindex d.cfg.ifname ≠ 0) (h : Describes d w)
    (haction : action .succeed d.cfg w = .remove) :
    (reconcile A .succeed d w).2.arp = w.arp ↔ d.record = none := by
  rw [arp_reconcile hif, haction, PinTable.perform]
  cases hrecord : d.record with
  | none => simp
  | some mac =>
      rw [Describes, hrecord] at h
      obtain ⟨x, hx, hfor, -⟩ := h
      simp only [Option.isSome_some, if_true, reduceCtorEq, iff_false]
      intro hsame
      rw [← hsame] at hx
      exact ((A.mem_delete ..).mp hx).2 (of_decide_eq_true hfor)

end Pass

/-! ### What is foretold -/

section Foretold

variable {A : Arp} {d : Daemon} {w : World} {cfg : Config} {a : Announcement}

/-- What the second half of the report announces: the decision without a stored MAC. -/
def found (cfg : Config) (w : World) : Announcement :=
  let ifindex := w.ifNametoindex cfg.ifname
  match findDefaultRouter ifindex w.routes6 with
  | none => .remove
  | some gw =>
      match routerLladdr ifindex gw w.neighbors6 with
      | none => .wait
      | some mac => .install mac

/-- The lines about the router announce that. -/
theorem filterMap_routerLines :
    (routerLines .succeed cfg w).filterMap ReportLine.announces = [found cfg w] := by
  have hread : ∀ table rows, sysctl .succeed table rows = rows := fun _ _ => rfl
  rw [routerLines, found]
  simp only [hread]
  cases findDefaultRouter (w.ifNametoindex cfg.ifname) w.routes6 with
  | none => rfl
  | some gw =>
      simp only
      cases routerLladdr (w.ifNametoindex cfg.ifname) gw w.neighbors6 with
      | none => rfl
      | some mac => rfl

/-- The lines about the gates announce that the daemon would not manage if one is closed. -/
theorem mem_filterMap_gateLines :
    a ∈ (gateLines .succeed cfg w).filterMap ReportLine.announces ↔
      gate .succeed cfg w = false ∧ a = .notManage := by
  have hfib : a ∈ (if cfg.requireSentinelRoute then [ReportLine.inFib cfg.sentinelStr
      (sentinelInFib cfg.sentinelAddr (sysctl .succeed .routes4 w.routes4))] else []).filterMap
        ReportLine.announces ↔
      (!cfg.requireSentinelRoute ||
        sentinelInFib cfg.sentinelAddr (sysctl .succeed .routes4 w.routes4)) = false ∧
          a = .notManage := by
    cases cfg.requireSentinelRoute with
    | false => simp
    | true =>
        cases hin : sentinelInFib cfg.sentinelAddr (sysctl .succeed .routes4 w.routes4) <;>
          simp [ReportLine.announces]
  rw [gateLines, gate, List.filterMap_append, List.mem_append, hfib]
  cases cfg.sentinelFile with
  | none => simp
  | some file =>
      cases hin : sentinelInFile .succeed w.files cfg file <;>
        simp [hin, ReportLine.announces]

/-- A report announces both. -/
theorem mem_announcements_iff (hif : w.ifNametoindex cfg.ifname ≠ 0) :
    a ∈ announcements .succeed cfg w ↔
      gate .succeed cfg w = false ∧ a = .notManage ∨ a = found cfg w := by
  have hlines : announcements .succeed cfg w =
      (gateLines .succeed cfg w).filterMap ReportLine.announces ++
        (routerLines .succeed cfg w).filterMap ReportLine.announces := by
    rw [announcements, dryRunReport, if_neg hif, ← List.filterMap_append]
    rfl
  rw [hlines, List.mem_append, mem_filterMap_gateLines, filterMap_routerLines,
    List.mem_singleton]

/-- What the report says that it would do is what it does with a router that is resolved,
behind an open gate; without a router, if no stored MAC takes its place; and with a router
that is not resolved, if what a pass goes by is there already. -/
def Foretold (d : Daemon) (w : World) : Prop :=
  let ifindex := w.ifNametoindex d.cfg.ifname
  let opened := gate .succeed d.cfg w = true
  let stored := storedMac .succeed d.cfg w
  match findDefaultRouter ifindex w.routes6 with
  | none => opened → stored = none
  | some gw =>
      match routerLladdr ifindex gw w.neighbors6 with
      | some _ => opened
      | none =>
          (opened ∧ ∃ mac, stored = some mac ∧
              arpEntryPresent ifindex d.cfg.sentinelAddr mac (w.arp.map ArpEntry.msg) = true) ∨
            (opened → stored = none) ∧ d.record = none

/-- The decision of a pass that resolves no router. -/
theorem action_of_unresolved (hresolved : resolvedMac .succeed cfg w = none) :
    action .succeed cfg w =
      match gate .succeed cfg w, storedMac .succeed cfg w with
      | true, some mac => .pin mac
      | _, _ => .remove := by
  rw [action, pinAction, hresolved, Option.none_or]
  cases gate .succeed cfg w with
  | false => rfl
  | true => cases storedMac .succeed cfg w <;> rfl

/-- Behind a closed gate a pass removes. -/
theorem action_of_closed (hgate : gate .succeed cfg w = false) :
    action .succeed cfg w = .remove := by
  rw [action, hgate]
  rfl

/-- When the entry is removed without a router. -/
theorem unpinned_iff_of_unresolved (hif : w.ifNametoindex d.cfg.ifname ≠ 0)
    (h : Describes d w) (hresolved : resolvedMac .succeed d.cfg w = none) :
    Unpinned (w.ifNametoindex d.cfg.ifname) d.cfg.sentinelAddr
        (reconcile A .succeed d w).2.arp ↔
      (gate .succeed d.cfg w = true → storedMac .succeed d.cfg w = none) := by
  have haction := action_of_unresolved hresolved
  cases hgate : gate .succeed d.cfg w with
  | false =>
      rw [hgate] at haction
      exact iff_of_true (unpinned_of_remove hif h haction) nofun
  | true =>
      rw [hgate] at haction
      cases hstored : storedMac .succeed d.cfg w with
      | none =>
          rw [hstored] at haction
          exact iff_of_true (unpinned_of_remove hif h haction) fun _ => rfl
      | some mac =>
          rw [hstored] at haction
          exact iff_of_false (pinnedTo_of_pin hif h haction).not_unpinned
            fun hnone => Option.some_ne_none mac (hnone rfl)

/-- When the table stays as it is without a router. -/
theorem unchanged_iff_of_unresolved (hif : w.ifNametoindex d.cfg.ifname ≠ 0)
    (h : Describes d w) (hresolved : resolvedMac .succeed d.cfg w = none) :
    (reconcile A .succeed d w).2.arp = w.arp ↔
      (gate .succeed d.cfg w = true ∧ ∃ mac, storedMac .succeed d.cfg w = some mac ∧
          arpEntryPresent (w.ifNametoindex d.cfg.ifname) d.cfg.sentinelAddr mac
            (w.arp.map ArpEntry.msg) = true) ∨
        (gate .succeed d.cfg w = true → storedMac .succeed d.cfg w = none) ∧
          d.record = none := by
  have haction := action_of_unresolved hresolved
  cases hgate : gate .succeed d.cfg w with
  | false =>
      rw [hgate] at haction
      rw [unchanged_iff_of_remove hif h haction]
      simp
  | true =>
      rw [hgate] at haction
      cases hstored : storedMac .succeed d.cfg w with
      | none =>
          rw [hstored] at haction
          rw [unchanged_iff_of_remove hif h haction]
          simp
      | some mac =>
          rw [hstored] at haction
          rw [unchanged_iff_of_pin hif h haction]
          simp

/-- What the report says about the router is what a pass does exactly in these cases. -/
theorem found_holds_iff (hif : w.ifNametoindex d.cfg.ifname ≠ 0) (h : Describes d w) :
    (found d.cfg w).Holds A d w ↔ Foretold d w := by
  have hresolved : resolvedMac .succeed d.cfg w =
      (findDefaultRouter (w.ifNametoindex d.cfg.ifname) w.routes6).bind fun gw =>
        routerLladdr (w.ifNametoindex d.cfg.ifname) gw w.neighbors6 := rfl
  rw [found, Foretold]
  cases hrouter : findDefaultRouter (w.ifNametoindex d.cfg.ifname) w.routes6 with
  | none =>
      rw [hrouter] at hresolved
      exact unpinned_iff_of_unresolved hif h hresolved
  | some gw =>
      rw [hrouter, Option.bind_some] at hresolved
      simp only
      cases hlladdr : routerLladdr (w.ifNametoindex d.cfg.ifname) gw w.neighbors6 with
      | none =>
          rw [hlladdr] at hresolved
          exact unchanged_iff_of_unresolved hif h hresolved
      | some mac =>
          rw [hlladdr] at hresolved
          simp only
          cases hgate : gate .succeed d.cfg w with
          | false =>
              have hunpinned := unpinned_of_remove (A := A) hif h (action_of_closed hgate)
              exact iff_of_false (fun hpinned => PinnedTo.not_unpinned hpinned hunpinned)
                Bool.false_ne_true
          | true =>
              have haction : action .succeed d.cfg w = .pin mac := by
                rw [action, hgate, hresolved]
                rfl
              exact iff_of_true (pinnedTo_of_pin hif h haction) rfl

/-- **Exactly when the dry run tells the truth** about a daemon whose record describes the
entry that is there: what it announces is what a pass does. -/
theorem announcements_hold_iff (A : Arp) (d : Daemon) (w : World) (h : Describes d w) :
    (∀ a ∈ announcements .succeed d.cfg w, a.Holds A d w) ↔
      w.ifNametoindex d.cfg.ifname = 0 ∨ Foretold d w := by
  by_cases hif : w.ifNametoindex d.cfg.ifname = 0
  · have hnone : announcements .succeed d.cfg w = [] := by
      rw [announcements, dryRunReport, if_pos hif]
      rfl
    rw [hnone]
    exact iff_of_true (fun a ha => (List.not_mem_nil ha).elim) (.inl hif)
  · simp only [mem_announcements_iff hif, hif, false_or]
    rw [← found_holds_iff (A := A) hif h]
    constructor
    · exact fun hall => hall _ (.inr rfl)
    · rintro hfound a (⟨hgate, rfl⟩ | rfl)
      · exact unpinned_of_remove hif h (action_of_closed hgate)
      · exact hfound

end Foretold

/-- The dry run on `en0` before the first pass. -/
theorem announcements_hold_withRouter :
    Describes (Daemon.fresh en0) withRouter ∧ ∀ a ∈ announcements .succeed en0 withRouter,
      a.Holds plainArp (Daemon.fresh en0) withRouter := by
  have hdescribes : Describes (Daemon.fresh en0) withRouter :=
    fun x hx => (List.not_mem_nil hx).elim
  have hopen : gate .succeed en0 withRouter = true := by decide
  exact ⟨hdescribes, (announcements_hold_iff plainArp (Daemon.fresh en0) withRouter hdescribes).mpr
    (.inr hopen)⟩

/-- **The stored MAC is left out**: the router is gone, the dry run announces that it would
remove any entry, and the daemon, whose record describes the entry, keeps it. -/
theorem stored_mac_not_foretold :
    announcements .succeed en0 withoutRouter = [.remove] ∧
      Describes afterPass.1 withoutRouter ∧
      PinnedTo 4 en0.sentinelAddr routerMac
        (reconcile plainArp .succeed afterPass.1 withoutRouter).2.arp ∧
      ¬ Announcement.remove.Holds plainArp afterPass.1 withoutRouter := by
  have harp : withoutRouter.arp = plainArp.set 4 en0.sentinelAddr routerMac [] := by decide
  have hafter : (reconcile plainArp .succeed afterPass.1 withoutRouter).2.arp =
      plainArp.set 4 en0.sentinelAddr routerMac [] := by decide
  have hrecord : afterPass.1.record = some routerMac := by decide
  have hpinned : PinnedTo 4 en0.sentinelAddr routerMac
      (reconcile plainArp .succeed afterPass.1 withoutRouter).2.arp := by
    rw [hafter]
    exact pinnedTo_set
  refine ⟨by decide, ?_, hpinned, fun hunpinned => hpinned.not_unpinned hunpinned⟩
  rw [Describes, hrecord, harp]
  exact pinnedTo_set

end V4WithV6Nh.MacosDaemon
