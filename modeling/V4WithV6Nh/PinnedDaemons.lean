import V4WithV6Nh.Lifetimes
import V4WithV6Nh.MacosDaemon
import V4WithV6Nh.PinnedNeighbor
import V4WithV6Nh.WindowsDaemon

/-!
# The macOS and Windows Daemons Pin a Neighbour Entry

`v4gwd-arp.c` and `v4gwd.c` are one program on two systems. A pass of either whose calls
succeed takes the decision `pinAction` from its gate, the router it resolves and the
mapping stored for the own MAC, and carries it out as `PinTable.perform` says. The record
of what is pinned is the installed flag together with the installed MAC.

## Main results

* `MacosDaemon.reconcile_succeed`, `WindowsDaemon.reconcileOn_succeed`: a pass of the
  daemon is a pass of the pinned entry.
-/

namespace V4WithV6Nh

/-! ### macOS -/

namespace MacosDaemon

variable {A : Arp} {d : Daemon} {w : World} {mac : Mac}

/-- What the daemon believes to be pinned. -/
def Daemon.record (d : Daemon) : Option Mac :=
  if d.arpInstalled then some d.installedMac else none

/-- A permanent entry that the daemon put into the ARP table is there for the address. -/
def PinnedByDaemon (ifindex : ℕ) (addr : InAddr) (table : List ArpEntry) : Prop :=
  ∃ x ∈ table, x.IsFor ifindex addr ∧ x.IsPermanent ∧ x.byDaemon = true

instance (ifindex : ℕ) (addr : InAddr) (table : List ArpEntry) :
    Decidable (PinnedByDaemon ifindex addr table) :=
  inferInstanceAs (Decidable (∃ x ∈ table, _ ∧ _))

/-- A scan for the entry looks at rows for the address only. -/
theorem isFor_of_presentIn {ifindex : ℕ} {addr : InAddr} {x : ArpEntry} {b : Bool}
    (h : presentIn ifindex addr mac x.msg = some b) : x.IsFor ifindex addr := by
  rw [presentIn] at h
  split_ifs at h with hversion hindex
  split at h
  · rename_i dst lladdr hdst hgateway
    split_ifs at h with haddr
    exact ⟨not_not.mp hindex, by rw [hdst, not_not.mp haddr]⟩
  · cases h

/-- After `arp -s` the entry is present. -/
theorem arpEntryPresent_set {ifindex : ℕ} {addr : InAddr} {table : List ArpEntry} :
    arpEntryPresent ifindex addr mac ((A.set ifindex addr mac table).map ArpEntry.msg) = true := by
  obtain ⟨hversion, hindex, hstatic, hdst, hgateway⟩ := A.entry_spec ifindex addr mac
  have hentry : presentIn ifindex addr mac (A.entry ifindex addr mac) = some true := by
    have hstatic' : ¬ (A.entry ifindex addr mac).rtmFlags &&& RTF_STATIC = 0#32 := hstatic
    simp [presentIn, hversion, hindex, hdst, hgateway, hstatic']
  -- the only row that the scan can stop at is the new one
  have hscan : (A.set ifindex addr mac table).findSome?
      (presentIn ifindex addr mac ∘ ArpEntry.msg) = some true := by
    refine findSome?_eq_some_of_agree ((A.mem_set ..).mpr (Or.inl rfl)) hentry ?_
    intro x hx b hb
    rcases (A.mem_set ..).mp hx with rfl | ⟨-, hnot⟩
    · exact Option.some.inj (hb.symm.trans hentry)
    · exact absurd (isFor_of_presentIn hb) hnot
  rw [arpEntryPresent, List.findSome?_map, hscan]
  rfl

/-- The ARP table with the entry for one address on one interface. -/
def pinTable (A : Arp) (ifindex : ℕ) (addr : InAddr) : PinTable (List ArpEntry) Mac where
  pin := A.set ifindex addr
  remove := A.delete ifindex addr
  shows mac table := arpEntryPresent ifindex addr mac (table.map ArpEntry.msg)
  Ours := PinnedByDaemon ifindex addr
  shows_pin _ _ := arpEntryPresent_set
  ours_pin mac table := by
    obtain ⟨-, hindex, hstatic, hdst, -⟩ := A.entry_spec ifindex addr mac
    exact ⟨_, (A.mem_set ..).mpr (Or.inl rfl), ⟨hindex, hdst⟩, hstatic, rfl⟩
  not_ours_remove table := by
    rintro ⟨x, hx, hfor, -⟩
    exact ((A.mem_delete ..).mp hx).2 hfor

/-- The table of the sentinel on the managed interface. -/
def Daemon.table (A : Arp) (d : Daemon) (w : World) : PinTable (List ArpEntry) Mac :=
  pinTable A (w.ifNametoindex d.cfg.ifname) d.cfg.sentinelAddr

/-- The router MAC that is stored for the own MAC of the interface. -/
def storedMac (calls : Calls) (cfg : Config) (w : World) : Option Mac :=
  (hostMac calls cfg w).bind (routerCacheLookup calls w.files)

/-- The decision of a pass. -/
def action (calls : Calls) (cfg : Config) (w : World) : PinAction Mac :=
  pinAction (gate calls cfg w) (resolvedMac calls cfg w) (storedMac calls cfg w)

/-- An installation that does not fail pins the MAC. -/
theorem install_succeed :
    ((install A .succeed d mac w).1.record, (install A .succeed d mac w).2.arp) =
      (d.table A w).perform d.record w.arp (.pin mac) := by
  have hquiet : (d.record = some mac ∧ (d.table A w).shows mac w.arp) ↔
      d.arpInstalled ∧ d.installedMac = mac ∧ arpEntryPresent (w.ifNametoindex d.cfg.ifname)
        d.cfg.sentinelAddr mac (sysctl .succeed .arp (w.arp.map ArpEntry.msg)) := by
    rw [Daemon.record, Option.ite_none_right_eq_some, Option.some.injEq, and_assoc]
    rfl
  rw [PinTable.perform, install]
  simp only [hquiet]
  split
  · rfl
  · rfl

/-- A withdrawal that does not fail removes the entry. -/
theorem withdraw_succeed (hif : w.ifNametoindex d.cfg.ifname ≠ 0) :
    ((withdraw A .succeed d w).1.record, (withdraw A .succeed d w).2.arp) =
      (d.table A w).perform d.record w.arp .remove := by
  rw [PinTable.perform, withdraw]
  cases hflag : d.arpInstalled with
  | false => simp [Daemon.record, hflag]
  | true => simp [Daemon.record, hflag, hif, Calls.succeed, Daemon.table, pinTable]

/-- An installation leaves the files alone. -/
theorem install_files (calls : Calls) : (install A calls d mac w).2.files = w.files := by
  rw [install]
  split_ifs <;> rfl

/-- A withdrawal leaves the files alone. -/
theorem withdraw_files (calls : Calls) : (withdraw A calls d w).2.files = w.files := by
  rw [withdraw]
  by_cases hflag : d.arpInstalled = true
  · rw [if_neg (not_not.mpr hflag)]
    simp only
    split_ifs <;> rfl
  · rw [if_pos hflag]

/-- A pass installs or withdraws, as it decides. -/
theorem reconcile_action (calls : Calls) (hif : w.ifNametoindex d.cfg.ifname ≠ 0) :
    ((reconcile A calls d w).1, (reconcile A calls d w).2.arp) =
      match action calls d.cfg w with
      | .pin mac => ((install A calls d mac w).1, (install A calls d mac w).2.arp)
      | .remove => ((withdraw A calls d w).1, (withdraw A calls d w).2.arp) := by
  rw [reconcile, if_neg hif, action, pinAction]
  cases hgate : gate calls d.cfg w with
  | false => rfl
  | true =>
      cases hresolved : resolvedMac calls d.cfg w with
      | some mac =>
          simp only [not_true_eq_false, if_false, if_true, Option.some_or]
          split <;> rfl
      | none =>
          simp only [not_true_eq_false, if_false, if_true, Option.none_or]
          rw [storedMac]
          split
          · rename_i hstored
            rw [hstored]
          · rename_i hstored
            rw [hstored]

/-- **A pass whose calls succeed carries out its decision.** -/
theorem reconcile_succeed (hif : w.ifNametoindex d.cfg.ifname ≠ 0) :
    ((reconcile A .succeed d w).1.record, (reconcile A .succeed d w).2.arp) =
      (d.table A w).perform d.record w.arp (action .succeed d.cfg w) := by
  have hpass := reconcile_action (A := A) .succeed hif
  cases haction : action .succeed d.cfg w with
  | pin mac =>
      rw [haction] at hpass
      obtain ⟨hdaemon, harp⟩ := Prod.mk.inj hpass
      rw [hdaemon, harp]
      exact install_succeed
  | remove =>
      rw [haction] at hpass
      obtain ⟨hdaemon, harp⟩ := Prod.mk.inj hpass
      rw [hdaemon, harp]
      exact withdraw_succeed hif

/-- The daemon over its lifetimes. Others do not put entries into the ARP table for it. -/
def program (A : Arp) : Program Config Calls Daemon World where
  fresh := Daemon.fresh
  pass := reconcile A
  stop calls d w := (withdraw A calls d w).2
  Others w w' := ∀ x ∈ w'.arp, x.byDaemon = true → x ∈ w.arp

end MacosDaemon

/-! ### Windows -/

namespace WindowsDaemon

variable {I : IpHelper} {d : Daemon} {w : World} {luid : ℕ} {mac : Mac}

/-- What the service believes to be pinned. -/
def Daemon.record (d : Daemon) : Option Mac :=
  if d.installed then some d.installedMac else none

/-- A permanent entry that the service put into the table is there for the sentinel. -/
def PinnedByDaemon (luid : ℕ) (table : List NetEntry) : Prop :=
  ∃ x ∈ table, x.SameKey (fillSentinelRow luid none) ∧ x.row.state = .permanent ∧
    x.byDaemon = true

instance (luid : ℕ) (table : List NetEntry) : Decidable (PinnedByDaemon luid table) :=
  inferInstanceAs (Decidable (∃ x ∈ table, _ ∧ _))

/-- A scan for the entry looks at rows for the sentinel only. -/
theorem sameKey_of_presentIn {x : NetEntry} {b : Bool}
    (h : presentIn luid mac x.row = some b) : x.SameKey (fillSentinelRow luid (some mac)) := by
  rw [presentIn] at h
  split_ifs at h with hluid haddr
  exact ⟨not_not.mp hluid, not_not.mp haddr⟩

/-- The entry that `neighbor_present` accepts. -/
theorem exists_of_neighborPresent {table : List NetEntry}
    (h : neighborPresent luid mac (table.map NetEntry.row) = true) :
    ∃ x ∈ table, x.SameKey (fillSentinelRow luid none) ∧ x.row.state = .permanent ∧
      x.row.physicalAddress = mac.toList := by
  rw [neighborPresent, List.findSome?_map] at h
  cases hscan : table.findSome? (presentIn luid mac ∘ NetEntry.row) with
  | none =>
      rw [hscan] at h
      cases h
  | some b =>
      rw [hscan] at h
      obtain rfl : b = true := h
      obtain ⟨x, hx, hpresent⟩ := List.exists_of_findSome?_eq_some hscan
      have hfor : x.SameKey (fillSentinelRow luid none) := sameKey_of_presentIn hpresent
      rw [Function.comp_apply, presentIn] at hpresent
      split_ifs at hpresent
      obtain ⟨hstate, -, hmac⟩ := of_decide_eq_true (Option.some.inj hpresent)
      exact ⟨x, hx, hfor, hstate, hmac⟩

/-- After a deletion and a creation the entry is present. -/
theorem neighborPresent_create {table : List NetEntry} :
    neighborPresent luid mac ((I.create (fillSentinelRow luid (some mac))
      (I.deleteIpNetEntry2 none (fillSentinelRow luid (some mac)) table).2).map
        NetEntry.row) = true := by
  have hentry : presentIn luid mac (fillSentinelRow luid (some mac)) = some true := by
    simp [presentIn, fillSentinelRow]
  -- the only row that the scan can stop at is the new one
  have hscan : (I.create (fillSentinelRow luid (some mac))
      (I.deleteIpNetEntry2 none (fillSentinelRow luid (some mac)) table).2).findSome?
        (presentIn luid mac ∘ NetEntry.row) = some true := by
    refine findSome?_eq_some_of_agree ((I.mem_create ..).mpr (Or.inl rfl)) hentry ?_
    intro x hx b hb
    rcases (I.mem_create ..).mp hx with rfl | hold
    · exact Option.some.inj (hb.symm.trans hentry)
    · exact absurd (sameKey_of_presentIn hb) (IpHelper.mem_deleteIpNetEntry2.mp hold).2
  rw [neighborPresent, List.findSome?_map, hscan]
  rfl

/-- The IPv4 neighbour table with the entry for the sentinel on one interface. -/
def pinTable (I : IpHelper) (luid : ℕ) : PinTable (List NetEntry) Mac where
  pin mac table :=
    let row := fillSentinelRow luid (some mac)
    I.create row (I.deleteIpNetEntry2 none row table).2
  remove table := (I.deleteIpNetEntry2 none (fillSentinelRow luid none) table).2
  shows mac table := neighborPresent luid mac (table.map NetEntry.row)
  Ours := PinnedByDaemon luid
  shows_pin _ _ := neighborPresent_create
  ours_pin mac table :=
    ⟨_, (I.mem_create ..).mpr (Or.inl rfl), ⟨rfl, rfl⟩, rfl, rfl⟩
  not_ours_remove table := by
    rintro ⟨x, hx, hkey, -⟩
    exact (IpHelper.mem_deleteIpNetEntry2.mp hx).2 hkey

/-- The router MAC that is stored for the own MAC of the interface. -/
def storedMac (calls : Calls) (luid : ℕ) (w : World) : Option Mac :=
  (interfaceMac calls w luid).bind (routerCacheLookup calls w.registry)

/-- The decision of a pass. -/
def action (calls : Calls) (cfg : Config) (luid : ℕ) (w : World) : PinAction Mac :=
  pinAction (gate calls cfg luid w) (resolvedMac calls luid w) (storedMac calls luid w)

/-- An installation that does not fail pins the MAC. -/
theorem install_succeed :
    ((install I .succeed d luid mac w).1.record, (install I .succeed d luid mac w).2.net4) =
      (pinTable I luid).perform d.record w.net4 (.pin mac) := by
  have hquiet : (d.record = some mac ∧ (pinTable I luid).shows mac w.net4) ↔
      d.installed ∧ d.installedMac = mac ∧
        neighborPresent luid mac (getTable .succeed .net4 (w.net4.map NetEntry.row)) := by
    rw [Daemon.record, Option.ite_none_right_eq_some, Option.some.injEq, and_assoc]
    rfl
  have hcreate : I.createIpNetEntry2 none (fillSentinelRow luid (some mac))
      (I.deleteIpNetEntry2 none (fillSentinelRow luid (some mac)) w.net4).2 =
        (NO_ERROR, (pinTable I luid).pin mac w.net4) :=
    IpHelper.createIpNetEntry2_of_new fun x hx => (IpHelper.mem_deleteIpNetEntry2.mp hx).2
  rw [PinTable.perform, install]
  simp only [hquiet, Calls.succeed, hcreate]
  split
  · rfl
  · rfl

/-- A withdrawal that does not fail removes the entry. -/
theorem withdraw_succeed :
    ((withdraw I .succeed d luid w).1.record, (withdraw I .succeed d luid w).2.net4) =
      (pinTable I luid).perform d.record w.net4 .remove := by
  rw [PinTable.perform, withdraw]
  cases hflag : d.installed with
  | false => simp [Daemon.record, hflag]
  | true => simp [Daemon.record, hflag, Calls.succeed, pinTable]

/-- An installation leaves the registry alone. -/
theorem install_registry (calls : Calls) :
    (install I calls d luid mac w).2.registry = w.registry := by
  rw [install]
  simp only
  split_ifs <;> rfl

/-- A withdrawal leaves the registry alone. -/
theorem withdraw_registry (calls : Calls) :
    (withdraw I calls d luid w).2.registry = w.registry := by
  rw [withdraw]
  split_ifs <;> rfl

/-- A pass installs or withdraws, as it decides. -/
theorem reconcileOn_action (I : IpHelper) (calls : Calls) (d : Daemon) (luid : ℕ) (w : World) :
    ((reconcileOn I calls d luid w).1, (reconcileOn I calls d luid w).2.net4) =
      match action calls d.cfg luid w with
      | .pin mac => ((install I calls d luid mac w).1, (install I calls d luid mac w).2.net4)
      | .remove => ((withdraw I calls d luid w).1, (withdraw I calls d luid w).2.net4) := by
  rw [reconcileOn, action, pinAction]
  cases hgate : gate calls d.cfg luid w with
  | false => rfl
  | true =>
      cases hresolved : resolvedMac calls luid w with
      | some mac =>
          simp only [not_true_eq_false, if_false, if_true, Option.some_or]
          split <;> rfl
      | none =>
          simp only [not_true_eq_false, if_false, if_true, Option.none_or]
          rw [storedMac]
          split
          · rename_i hstored
            rw [hstored]
          · rename_i hstored
            rw [hstored]

/-- **A pass whose calls succeed carries out its decision.** -/
theorem reconcileOn_succeed :
    ((reconcileOn I .succeed d luid w).1.record, (reconcileOn I .succeed d luid w).2.net4) =
      (pinTable I luid).perform d.record w.net4 (action .succeed d.cfg luid w) := by
  have hpass := reconcileOn_action I .succeed d luid w
  cases haction : action .succeed d.cfg luid w with
  | pin mac =>
      rw [haction] at hpass
      obtain ⟨hdaemon, hnet4⟩ := Prod.mk.inj hpass
      rw [hdaemon, hnet4]
      exact install_succeed
  | remove =>
      rw [haction] at hpass
      obtain ⟨hdaemon, hnet4⟩ := Prod.mk.inj hpass
      rw [hdaemon, hnet4]
      exact withdraw_succeed

/-- The service over its lifetimes. Others do not put entries into the table for it. -/
def program (I : IpHelper) : Program Config Calls Daemon World where
  fresh := Daemon.fresh
  pass := reconcile I
  stop := shutdown I
  Others w w' := ∀ x ∈ w'.net4, x.byDaemon = true → x ∈ w.net4

end WindowsDaemon

end V4WithV6Nh
