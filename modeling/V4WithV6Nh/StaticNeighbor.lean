import V4WithV6Nh.HostFib
import V4WithV6Nh.PinRemoval

/-!
# The Pinned Entry Converges

Three daemons realize the gateway as a permanent neighbour entry: `v4gwd.py` on kernels
without RTA_VIA, the macOS daemon and the Windows service. Each re-asserts the entry unless
it remembers this very MAC and finds it permanent in the kernel. So from any memory and any
table one pass that resolves the router is enough, and the next one finds nothing to do.

A kernel has at most one neighbour entry for an address on an interface.

## Main results

* `HostDaemon.reconcile_pins`, `MacosDaemon.reconcile_pins`, `WindowsDaemon.reconcile_pins`:
  a pass that resolves the router leaves the permanent entry with its MAC as the only one,
  and remembers the MAC.
* `static_neighbor_converges`: that, and a further pass changes nothing, for all three.
-/

namespace V4WithV6Nh

section Sole

variable {α : Type} {p : α → Bool} {wanted : α → Prop} {l : List α} {x : α}

/-- One row of the list is for the address, and it is as wanted. -/
def Sole (isFor wanted : α → Prop) (l : List α) : Prop :=
  ∃ x ∈ l, isFor x ∧ wanted x ∧ ∀ y ∈ l, isFor y → y = x

/-- At most one row of the list is for the address. -/
def AtMostOne (isFor : α → Bool) (l : List α) : Prop := (l.filter isFor).length ≤ 1

instance (isFor : α → Bool) (l : List α) : Decidable (AtMostOne isFor l) :=
  inferInstanceAs (Decidable (_ ≤ _))

/-- The row that a filter leaves is the only one. -/
theorem sole_of_filter_eq (h : l.filter p = [x]) (hx : wanted x) :
    Sole (p · = true) wanted l := by
  have hmem : ∀ y, y ∈ l ∧ p y = true ↔ y = x := by
    intro y
    rw [← List.mem_filter, h, List.mem_singleton]
  obtain ⟨hin, hp⟩ := (hmem x).mpr rfl
  exact ⟨x, hin, hp, hx, fun y hy hpy => (hmem y).mp ⟨hy, hpy⟩⟩

/-- Of at most one row a filter leaves the one that is there. -/
theorem filter_eq_singleton (huniq : AtMostOne p l) (hx : x ∈ l) (hp : p x = true) :
    l.filter p = [x] := by
  have hin : x ∈ l.filter p := List.mem_filter.mpr ⟨hx, hp⟩
  obtain ⟨y, hy⟩ := List.length_eq_one_iff.mp
    (le_antisymm huniq (List.length_pos_of_mem hin))
  rw [hy, List.mem_singleton] at hin
  rw [hy, hin]

/-- A row for the address is the only one, if there is at most one. -/
theorem sole_of_mem (huniq : AtMostOne p l) (hx : x ∈ l) (hp : p x = true) (hw : wanted x) :
    Sole (p · = true) wanted l :=
  sole_of_filter_eq (filter_eq_singleton huniq hx hp) hw

end Sole

/-! ### `v4gwd.py` -/

namespace HostDaemon

open Interface

section Static

variable {env : Env} {i : Interface} {w : World} {gw : IPv6} {mac : Text} {idx : ℕ}

/-- The only entry for the sentinel on the interface is permanent and has the MAC. -/
def PinnedTo (idx : ℕ) (sentinel mac : Text) (neigh4 : List Neigh4) : Prop :=
  Sole (Neigh4.isFor idx sentinel · = true)
    (fun n => n.state &&& NUD_PERMANENT ≠ 0 ∧ n.lladdr = some mac) neigh4

/-- A pass in which every call succeeds follows `gw`, which has the link-layer address `mac`
in the neighbour cache. -/
def Resolves (env : Env) (i : Interface) (t : Tables) (gw : IPv6) (mac : Text) : Prop :=
  NoFaults env ∧ Follows env i t gw ∧ (i.resolveIndex env).routerLladdr env gw = some mac

/-- In static mode a pass that selects a router pins it. -/
theorem reconcile_static (hstatic : i.staticArp = true) (h : Follows env i w.tables gw) :
    i.reconcile env w = (.ok (), (i.resolveIndex env).pinNeighbor env gw
      ((i.resolveIndex env).solicit env gw w)) := by
  have hstatic' : (i.resolveIndex env).staticArp = true := hstatic
  rw [reconcile_of_follows h, install, if_pos hstatic']

/-- An entry that `_neighbor_present` accepts is the pinned one. -/
theorem pinnedTo_of_neighborPresent (hf : NoFaults env) (hidx : i.index = some idx)
    (huniq : AtMostOne (Neigh4.isFor idx i.sentinel) w.tables.neigh4)
    (h : i.neighborPresent env mac w.tables = true) :
    PinnedTo idx i.sentinel mac w.tables.neigh4 := by
  rw [neighborPresent, hf, List.any_eq_true] at h
  obtain ⟨n, hn, hpresent⟩ := h
  obtain ⟨hindex, hdst, hstate, hlladdr⟩ := of_decide_eq_true hpresent
  rw [hidx, Option.some.injEq] at hindex
  exact sole_of_mem huniq hn (decide_eq_true ⟨hindex, hdst⟩) ⟨hstate, hlladdr⟩

/-- An entry that was replaced is the pinned one, and `_neighbor_present` accepts it. -/
theorem pinnedTo_upsertFirst {table : List Neigh4} (hidx : i.index = some idx)
    (huniq : AtMostOne (Neigh4.isFor idx i.sentinel) table) :
    PinnedTo idx i.sentinel mac (upsertFirst
      (Neigh4.isFor (i.pinnedNeighbor mac).ifindex (i.pinnedNeighbor mac).dst)
      (i.pinnedNeighbor mac) table) := by
  have hfor : Neigh4.isFor idx i.sentinel (i.pinnedNeighbor mac) = true := by
    simp [Neigh4.isFor, pinnedNeighbor, hidx]
  have hkey : Neigh4.isFor (i.pinnedNeighbor mac).ifindex (i.pinnedNeighbor mac).dst =
      Neigh4.isFor idx i.sentinel := by
    simp [pinnedNeighbor, hidx]
  have htail : (table.filter (Neigh4.isFor idx i.sentinel)).tail = [] := by
    rw [AtMostOne] at huniq
    rw [← List.length_eq_zero_iff, List.length_tail]
    omega
  have hstate : (i.pinnedNeighbor mac).state &&& NUD_PERMANENT ≠ 0 := by
    simp [pinnedNeighbor, NUD_PERMANENT]
  refine sole_of_filter_eq (x := i.pinnedNeighbor mac) ?_ ⟨hstate, rfl⟩
  rw [hkey, filter_upsertFirst_self hfor, htail]

/-- The pinned entry is one that `_neighbor_present` accepts. -/
theorem neighborPresent_of_pinnedTo (hf : NoFaults env) (hidx : i.index = some idx)
    (h : PinnedTo idx i.sentinel mac w.tables.neigh4) :
    i.neighborPresent env mac w.tables = true := by
  obtain ⟨n, hn, hfor, ⟨hstate, hlladdr⟩, -⟩ := h
  obtain ⟨hindex, hdst⟩ := of_decide_eq_true hfor
  rw [neighborPresent, hf, List.any_eq_true]
  exact ⟨n, hn, decide_eq_true ⟨by rw [hidx, hindex], hdst, hstate, hlladdr⟩⟩

/-- What `_pin_neighbor` leaves when no call fails. -/
theorem pinNeighbor_pins (hf : NoFaults env) (hidx : i.index = some idx)
    (hmac : i.routerLladdr env gw = some mac)
    (huniq : AtMostOne (Neigh4.isFor idx i.sentinel) w.tables.neigh4) :
    (i.pinNeighbor env gw w).1 = { i with installedMac := some mac } ∧
      (i.pinNeighbor env gw w).2.tables.fib = w.tables.fib ∧
      PinnedTo idx i.sentinel mac (i.pinNeighbor env gw w).2.tables.neigh4 := by
  rw [pinNeighbor, hmac]
  by_cases hquiet : i.installedMac = some mac ∧ i.neighborPresent env mac w.tables = true
  · simp only [if_pos hquiet]
    refine ⟨?_, trivial, pinnedTo_of_neighborPresent hf hidx huniq hquiet.2⟩
    rw [← hquiet.1]
  · simp only [if_neg hquiet, hf _, neighReplace]
    exact ⟨trivial, trivial, pinnedTo_upsertFirst hidx huniq⟩

/-- **A pass that resolves the router pins it**, from every memory and every table. -/
theorem reconcile_pins (hstatic : i.staticArp = true) (h : Resolves env i w.tables gw mac)
    (hidx : linkLookup env.links i.name = some idx)
    (huniq : AtMostOne (Neigh4.isFor idx i.sentinel) w.tables.neigh4) :
    (i.reconcile env w).2.1 = { i.resolveIndex env with installedMac := some mac } ∧
      (i.reconcile env w).2.2.tables.fib = w.tables.fib ∧
      PinnedTo idx i.sentinel mac (i.reconcile env w).2.2.tables.neigh4 := by
  obtain ⟨hf, hfollow, hmac⟩ := h
  have hidx' : (i.resolveIndex env).index = some idx := hidx
  have hpins := pinNeighbor_pins (w := (i.resolveIndex env).solicit env gw w) hf hidx' hmac
  rw [solicit_tables] at hpins
  rw [reconcile_static hstatic hfollow]
  exact hpins huniq

/-- A pass that finds the pinned entry does no more than solicit the router. -/
theorem reconcile_of_pinnedTo (hstatic : i.staticArp = true)
    (h : Resolves env i w.tables gw mac) (hidx : linkLookup env.links i.name = some idx)
    (hindex : i.index = some idx) (hrecord : i.installedMac = some mac)
    (hpinned : PinnedTo idx i.sentinel mac w.tables.neigh4) :
    i.reconcile env w = (.ok (), i, i.solicit env gw w) := by
  obtain ⟨hf, hfollow, hmac⟩ := h
  have hsame : i.resolveIndex env = i := by
    rw [resolveIndex, hidx, ← hindex]
  rw [hsame] at hmac
  have hpresent : i.neighborPresent env mac (i.solicit env gw w).tables = true := by
    rw [solicit_tables]
    exact neighborPresent_of_pinnedTo hf hindex hpinned
  rw [reconcile_static hstatic hfollow, hsame, pinNeighbor, hmac]
  simp only [if_pos (And.intro hrecord hpresent)]

/-- A further pass in the same environment resolves the same router. -/
theorem resolves_again {i' : Interface} {t t' : Tables} (h : Resolves env i t gw mac)
    (hi : i' = { i.resolveIndex env with installedMac := some mac }) (ht : t'.fib = t.fib) :
    Resolves env i' t' gw mac := by
  obtain ⟨hf, ⟨hlink, hindex, hgate, hselect⟩, hmac⟩ := h
  subst hi
  refine ⟨hf, ⟨hlink, hindex, ?_, hselect⟩, hmac⟩
  rw [← hgate, gate, gate, sentinelPresent, sentinelPresent, ht]
  rfl

/-- The pass remembers the MAC, its entry is the only one for the sentinel and permanent,
and a further pass does no more than solicit the router. -/
def Converged (env : Env) (idx : ℕ) (gw : IPv6) (mac : Text) (r : Interface × World) : Prop :=
  r.1.installedMac = some mac ∧ PinnedTo idx r.1.sentinel mac r.2.tables.neigh4 ∧
    r.1.reconcile env r.2 = (.ok (), r.1, r.1.solicit env gw r.2)

/-- **The static mode converges.** -/
theorem reconcile_converged (hstatic : i.staticArp = true) (h : Resolves env i w.tables gw mac)
    (hidx : linkLookup env.links i.name = some idx)
    (huniq : AtMostOne (Neigh4.isFor idx i.sentinel) w.tables.neigh4) :
    Converged env idx gw mac (i.reconcile env w).2 := by
  obtain ⟨hi, hfib, hpinned⟩ := reconcile_pins hstatic h hidx huniq
  have hagain := resolves_again h hi hfib
  have hsentinel : (i.reconcile env w).2.1.sentinel = i.sentinel := by
    rw [hi]
    rfl
  have hrecord : (i.reconcile env w).2.1.installedMac = some mac := by rw [hi]
  rw [← hsentinel] at hpinned
  refine ⟨hrecord, hpinned, reconcile_of_pinnedTo ?_ hagain ?_ ?_ hrecord hpinned⟩
  · rw [hi]
    exact hstatic
  · rw [hi]
    exact hidx
  · rw [hi]
    exact hidx

end Static

end HostDaemon

/-! ### macOS -/

namespace MacosDaemon

variable {A : Arp} {d : Daemon} {w : World} {mac : Mac} {ifindex : ℕ} {addr : InAddr}
  {arp : List ArpEntry}

/-- The entry is for an address on an interface. -/
def isSentinelEntry (ifindex : ℕ) (addr : InAddr) (x : ArpEntry) : Bool :=
  decide (x.IsFor ifindex addr)

/-- The only entry for an address on an interface is permanent and has the MAC. -/
def PinnedTo (ifindex : ℕ) (addr : InAddr) (mac : Mac) (arp : List ArpEntry) : Prop :=
  Sole (isSentinelEntry ifindex addr · = true)
    (fun x => x.IsPermanent ∧ x.msg.gateway = some (.link mac.toList)) arp

/-- A pass finds the interface, passes the gate and resolves the router to `mac`. -/
def Resolves (d : Daemon) (w : World) (mac : Mac) : Prop :=
  w.ifNametoindex d.cfg.ifname ≠ 0 ∧ gate .succeed d.cfg w = true ∧
    resolvedMac .succeed d.cfg w = some mac

/-- A row at which `arp_entry_present` stops with success is as wanted. -/
theorem wanted_of_presentIn {x : ArpEntry} (h : presentIn ifindex addr mac x.msg = some true) :
    x.IsPermanent ∧ x.msg.gateway = some (.link mac.toList) := by
  rw [presentIn] at h
  split_ifs at h
  split at h
  · rename_i lladdr _ hgateway
    split_ifs at h
    obtain ⟨-, hlladdr, hstatic⟩ := of_decide_eq_true (Option.some.inj h)
    exact ⟨hstatic, by rw [hgateway, hlladdr]⟩
  · cases h

/-- The entry that `arp_entry_present` accepts. -/
theorem exists_of_arpEntryPresent
    (h : arpEntryPresent ifindex addr mac (arp.map ArpEntry.msg) = true) :
    ∃ x ∈ arp, x.IsFor ifindex addr ∧ x.IsPermanent ∧
      x.msg.gateway = some (.link mac.toList) := by
  rw [arpEntryPresent, List.findSome?_map] at h
  cases hscan : arp.findSome? (presentIn ifindex addr mac ∘ ArpEntry.msg) with
  | none =>
      rw [hscan] at h
      cases h
  | some b =>
      rw [hscan] at h
      obtain rfl : b = true := h
      obtain ⟨x, hx, hpresent⟩ := List.exists_of_findSome?_eq_some hscan
      exact ⟨x, hx, isFor_of_presentIn hpresent, wanted_of_presentIn hpresent⟩

/-- The entry that `arp_entry_present` accepts is the pinned one. -/
theorem pinnedTo_of_arpEntryPresent
    (huniq : AtMostOne (isSentinelEntry ifindex addr) arp)
    (h : arpEntryPresent ifindex addr mac (arp.map ArpEntry.msg) = true) :
    PinnedTo ifindex addr mac arp := by
  obtain ⟨x, hx, hfor, hwanted⟩ := exists_of_arpEntryPresent h
  exact sole_of_mem huniq hx (decide_eq_true hfor) hwanted

/-- The entry of `arp -s` is the pinned one. -/
theorem pinnedTo_set : PinnedTo ifindex addr mac (A.set ifindex addr mac arp) := by
  obtain ⟨-, hindex, hstatic, hdst, hgateway⟩ := A.entry_spec ifindex addr mac
  refine ⟨_, (A.mem_set ..).mpr (Or.inl rfl), decide_eq_true ⟨hindex, hdst⟩,
    ⟨hstatic, hgateway⟩, ?_⟩
  intro y hy hfor
  exact ((A.mem_set ..).mp hy).resolve_right fun h => h.2 (of_decide_eq_true hfor)

/-- What a pass that resolves the router does. -/
theorem reconcile_of_resolves (h : Resolves d w mac) :
    reconcile A .succeed d w = ((install A .succeed d mac w).1,
      { (install A .succeed d mac w).2 with
        files := match hostMac .succeed d.cfg w with
          | some host => routerCachePut .succeed w.files host mac
          | none => w.files }) := by
  obtain ⟨hif, hgate, hresolved⟩ := h
  rw [reconcile, if_neg hif, if_neg (not_not.mpr hgate), hresolved]
  cases hhost : hostMac .succeed d.cfg w with
  | some host => simp only [install_files]
  | none =>
      simp only
      rw [← @install_files A d w mac .succeed]

/-- **A pass that resolves the router pins it**, from every memory and every table. -/
theorem reconcile_pins (h : Resolves d w mac)
    (huniq : AtMostOne (isSentinelEntry (w.ifNametoindex d.cfg.ifname) d.cfg.sentinelAddr)
      w.arp) :
    (reconcile A .succeed d w).1.record = some mac ∧
      PinnedTo (w.ifNametoindex d.cfg.ifname) d.cfg.sentinelAddr mac
        (reconcile A .succeed d w).2.arp := by
  have haction : action .succeed d.cfg w = .pin mac := by
    rw [action, h.2.1, h.2.2]
    rfl
  have hpass := reconcile_succeed (A := A) h.1
  rw [haction] at hpass
  obtain ⟨hrecord, harp⟩ := Prod.mk.inj hpass
  rw [hrecord, harp]
  refine ⟨PinTable.perform_pin_record _ _ _ _, ?_⟩
  exact PinTable.perform_pin_of _ pinnedTo_set (pinnedTo_of_arpEntryPresent huniq)

/-- The pinned entry is one that `arp_entry_present` accepts. -/
theorem shows_reconcile (h : Resolves d w mac) :
    arpEntryPresent (w.ifNametoindex d.cfg.ifname) d.cfg.sentinelAddr mac
      ((reconcile A .succeed d w).2.arp.map ArpEntry.msg) = true := by
  have haction : action .succeed d.cfg w = .pin mac := by
    rw [action, h.2.1, h.2.2]
    rfl
  have hpass := reconcile_succeed (A := A) h.1
  rw [haction] at hpass
  rw [(Prod.mk.inj hpass).2]
  exact (d.table A w).shows_perform_pin _ _ _

/-- A pass that finds what it remembers and has stored changes nothing. -/
theorem reconcile_of_steady (h : Resolves d w mac) (hrecord : d.record = some mac)
    (hpresent : arpEntryPresent (w.ifNametoindex d.cfg.ifname) d.cfg.sentinelAddr mac
      (w.arp.map ArpEntry.msg) = true)
    (hstored : ∀ host, hostMac .succeed d.cfg w = some host →
      routerCacheLookup .succeed w.files host = some mac) :
    reconcile A .succeed d w = (d, w) := by
  obtain ⟨hflag, hmac⟩ := Option.ite_none_right_eq_some.mp hrecord
  have hinstall : install A .succeed d mac w = (d, w) :=
    if_pos ⟨hflag, Option.some.inj hmac, hpresent⟩
  rw [reconcile_of_resolves h, hinstall]
  cases hhost : hostMac .succeed d.cfg w with
  | some host => simp only [routerCachePut, if_pos (hstored host hhost)]
  | none => rfl

/-- What a pass that resolves the router leaves alone. -/
structure Frame (r : Daemon × World) (d : Daemon) (w : World) : Prop where
  cfg : r.1.cfg = d.cfg
  ifNametoindex : r.2.ifNametoindex = w.ifNametoindex
  ifaddrs : r.2.ifaddrs = w.ifaddrs
  routes6 : r.2.routes6 = w.routes6
  neighbors6 : r.2.neighbors6 = w.neighbors6
  routes4 : r.2.routes4 = w.routes4

/-- An installation leaves everything alone but the ARP table and the record. -/
theorem frame_install (calls : Calls) : Frame (install A calls d mac w) d w := by
  rw [install]
  split_ifs <;> exact ⟨rfl, rfl, rfl, rfl, rfl, rfl⟩

/-- A pass that resolves the router leaves everything alone but the ARP table, the files and
the record. -/
theorem frame_reconcile (h : Resolves d w mac) : Frame (reconcile A .succeed d w) d w := by
  obtain ⟨hcfg, hindex, hifaddrs, hroutes6, hneighbors6, hroutes4⟩ :=
    @frame_install A d w mac .succeed
  rw [reconcile_of_resolves h]
  exact ⟨hcfg, hindex, hifaddrs, hroutes6, hneighbors6, hroutes4⟩

/-- A pass over the same tables and the same sentinel file resolves the same router. -/
theorem Frame.resolves {r : Daemon × World} (hr : Frame r d w)
    (hfile : ∀ f, d.cfg.sentinelFile = some f → r.2.files f = w.files f)
    (h : Resolves d w mac) : Resolves r.1 r.2 mac := by
  obtain ⟨hif, hgate, hresolved⟩ := h
  refine ⟨by rwa [hr.cfg, hr.ifNametoindex], ?_, ?_⟩
  · rw [hr.cfg, ← hgate, gate, gate, hr.routes4]
    cases hf : d.cfg.sentinelFile with
    | none => rfl
    | some f => simp only [sentinelInFile, fopen, hfile f hf]
  · rw [hr.cfg, ← hresolved, resolvedMac, resolvedMac, hr.ifNametoindex, hr.routes6,
      hr.neighbors6]

/-- **A further pass changes nothing**, whatever arp(8) would do. -/
theorem reconcile_again {A' : Arp} (h : Resolves d w mac)
    (hfile : ∀ f, d.cfg.sentinelFile = some f →
      (reconcile A .succeed d w).2.files f = w.files f)
    (hrecord : (reconcile A .succeed d w).1.record = some mac) :
    reconcile A' .succeed (reconcile A .succeed d w).1 (reconcile A .succeed d w).2 =
      reconcile A .succeed d w := by
  have hframe := frame_reconcile (A := A) h
  have hpresent := shows_reconcile (A := A) h
  refine reconcile_of_steady (hframe.resolves hfile h) hrecord ?_ ?_
  · rwa [hframe.cfg, hframe.ifNametoindex]
  · intro host hhost
    have hhost' : hostMac .succeed d.cfg w = some host := by
      rwa [hostMac, hframe.cfg, hframe.ifaddrs] at hhost
    rw [reconcile_of_resolves h, hhost']
    exact routerCacheLookup_put.trans (if_pos rfl)

/-- The pass remembers the MAC, its entry is the only one for the sentinel and permanent,
and a further pass, for which its own writes have not changed the sentinel file, changes
nothing, whatever arp(8) would do. -/
def Converged (A : Arp) (d : Daemon) (w : World) (mac : Mac) : Prop :=
  let r := reconcile A .succeed d w
  r.1.record = some mac ∧
    PinnedTo (w.ifNametoindex d.cfg.ifname) d.cfg.sentinelAddr mac r.2.arp ∧
    ((∀ f, d.cfg.sentinelFile = some f → r.2.files f = w.files f) →
      ∀ A', reconcile A' .succeed r.1 r.2 = r)

/-- **The macOS daemon converges.** -/
theorem reconcile_converged (h : Resolves d w mac)
    (huniq : AtMostOne (isSentinelEntry (w.ifNametoindex d.cfg.ifname) d.cfg.sentinelAddr)
      w.arp) : Converged A d w mac := by
  obtain ⟨hrecord, hpinned⟩ := reconcile_pins (A := A) h huniq
  exact ⟨hrecord, hpinned, fun hfile A' => reconcile_again h hfile hrecord⟩

end MacosDaemon

/-! ### Windows -/

namespace WindowsDaemon

variable {I : IpHelper} {d : Daemon} {w : World} {luid : ℕ} {mac : Mac} {net4 : List NetEntry}

/-- The entry is for the sentinel on an interface. -/
def isSentinelEntry (luid : ℕ) (x : NetEntry) : Bool :=
  decide (x.SameKey (fillSentinelRow luid none))

/-- The only entry for the sentinel on the interface is permanent and has the MAC. -/
def PinnedTo (luid : ℕ) (mac : Mac) (net4 : List NetEntry) : Prop :=
  Sole (isSentinelEntry luid · = true)
    (fun x => x.row.state = .permanent ∧ x.row.physicalAddress = mac.toList) net4

/-- A pass finds the interface, passes the gate and resolves the router to `mac`. -/
def Resolves (d : Daemon) (w : World) (luid : ℕ) (mac : Mac) : Prop :=
  resolveLuid d w = some luid ∧ (w.luidToIndex luid).isSome = true ∧
    gate .succeed d.cfg luid w = true ∧ resolvedMac .succeed luid w = some mac

/-- The entry that `neighbor_present` accepts is the pinned one. -/
theorem pinnedTo_of_neighborPresent
    (huniq : AtMostOne (isSentinelEntry luid) net4)
    (h : neighborPresent luid mac (net4.map NetEntry.row) = true) : PinnedTo luid mac net4 := by
  obtain ⟨x, hx, hfor, hwanted⟩ := exists_of_neighborPresent h
  exact sole_of_mem huniq hx (decide_eq_true hfor) hwanted

/-- The entry that is created after a deletion is the pinned one. -/
theorem pinnedTo_pin : PinnedTo luid mac ((pinTable I luid).pin mac net4) := by
  refine ⟨_, (I.mem_create ..).mpr (Or.inl rfl), decide_eq_true ⟨rfl, rfl⟩, ⟨rfl, rfl⟩, ?_⟩
  intro y hy hfor
  refine ((I.mem_create ..).mp hy).resolve_right fun hold => ?_
  exact (IpHelper.mem_deleteIpNetEntry2.mp hold).2 (of_decide_eq_true hfor)

/-- What a pass on the interface does. -/
theorem Resolves.reconcile_eq (h : Resolves d w luid mac) : reconcile I .succeed d w =
    reconcileOn I .succeed { d with luid := some luid } luid w := by
  obtain ⟨index, hindex⟩ := Option.isSome_iff_exists.mp h.2.1
  rw [reconcile, h.1]
  simp only [hindex]

/-- What a pass that resolves the router decides, and carries out. -/
theorem Resolves.perform (h : Resolves d w luid mac) :
    ((reconcile I .succeed d w).1.record, (reconcile I .succeed d w).2.net4) =
      (pinTable I luid).perform d.record w.net4 (.pin mac) := by
  have haction : action .succeed d.cfg luid w = .pin mac := by
    rw [action, h.2.2.1, h.2.2.2]
    rfl
  rw [h.reconcile_eq, ← haction]
  exact reconcileOn_succeed

/-- **A pass that resolves the router pins it**, from every memory and every table. -/
theorem reconcile_pins (h : Resolves d w luid mac)
    (huniq : AtMostOne (isSentinelEntry luid) w.net4) :
    (reconcile I .succeed d w).1.record = some mac ∧
      PinnedTo luid mac (reconcile I .succeed d w).2.net4 := by
  obtain ⟨hrecord, hnet4⟩ := Prod.mk.inj (h.perform (I := I))
  rw [hrecord, hnet4]
  refine ⟨PinTable.perform_pin_record _ _ _ _, ?_⟩
  exact PinTable.perform_pin_of _ pinnedTo_pin (pinnedTo_of_neighborPresent huniq)

/-- What a pass that resolves the router does to the service and the world. -/
theorem Resolves.reconcile_install (h : Resolves d w luid mac) : reconcile I .succeed d w =
    ((install I .succeed { d with luid := some luid } luid mac w).1,
      { (install I .succeed { d with luid := some luid } luid mac w).2 with
        registry := match interfaceMac .succeed w luid with
          | some host => routerCachePut .succeed w.registry host mac
          | none => w.registry }) := by
  rw [h.reconcile_eq, reconcileOn, if_neg (not_not.mpr h.2.2.1), h.2.2.2]
  cases hhost : interfaceMac .succeed w luid with
  | some host => simp only [install_registry]
  | none =>
      simp only
      rw [← @install_registry I { d with luid := some luid } w luid mac .succeed]

/-- What a pass that resolves the router leaves alone. -/
structure Frame (r : Daemon × World) (d : Daemon) (w : World) : Prop where
  cfg : r.1.cfg = d.cfg
  luid : r.1.luid = d.luid
  luidToIndex : r.2.luidToIndex = w.luidToIndex
  ifEntry : r.2.ifEntry = w.ifEntry
  forward6 : r.2.forward6 = w.forward6
  forward4 : r.2.forward4 = w.forward4
  net6 : r.2.net6 = w.net6

/-- An installation leaves everything alone but the table and the record. -/
theorem frame_install (calls : Calls) : Frame (install I calls d luid mac w) d w := by
  rw [install]
  simp only
  split_ifs <;> exact ⟨rfl, rfl, rfl, rfl, rfl, rfl, rfl⟩

/-- A pass that resolves the router leaves everything alone but the table, the registry and
the record. -/
theorem frame_reconcile (h : Resolves d w luid mac) :
    Frame (reconcile I .succeed d w) { d with luid := some luid } w := by
  obtain ⟨hcfg, hluid, hindex, hentry, hforward6, hforward4, hnet6⟩ :=
    @frame_install I { d with luid := some luid } w luid mac .succeed
  rw [h.reconcile_install]
  exact ⟨hcfg, hluid, hindex, hentry, hforward6, hforward4, hnet6⟩

/-- A pass over the same tables resolves the same router. -/
theorem Frame.resolves {r : Daemon × World} (hr : Frame r { d with luid := some luid } w)
    (h : Resolves d w luid mac) : Resolves r.1 r.2 luid mac := by
  obtain ⟨-, hpresent, hgate, hresolved⟩ := h
  refine ⟨by rw [resolveLuid, hr.luid], by rwa [hr.luidToIndex], ?_, ?_⟩
  · rw [← hgate, hr.cfg, gate, gate, hr.forward4]
  · rw [← hresolved, resolvedMac, resolvedMac, hr.forward6, hr.net6]

/-- A pass that finds what it remembers and has stored changes nothing. -/
theorem reconcile_of_steady (h : Resolves d w luid mac) (hluid : d.luid = some luid)
    (hrecord : d.record = some mac)
    (hpresent : neighborPresent luid mac (w.net4.map NetEntry.row) = true)
    (hstored : ∀ host, interfaceMac .succeed w luid = some host →
      routerCacheLookup .succeed w.registry host = some mac) :
    reconcile I .succeed d w = (d, w) := by
  obtain ⟨hflag, hmac⟩ := Option.ite_none_right_eq_some.mp hrecord
  have hinstall : install I .succeed d luid mac w = (d, w) :=
    if_pos ⟨hflag, Option.some.inj hmac, hpresent⟩
  have hsame : { d with luid := some luid } = d := by rw [← hluid]
  rw [h.reconcile_install, hsame, hinstall]
  cases hhost : interfaceMac .succeed w luid with
  | some host => simp only [routerCachePut, if_pos (hstored host hhost)]
  | none => rfl

/-- **A further pass changes nothing**, whatever the calls would do. -/
theorem reconcile_again {I' : IpHelper} (h : Resolves d w luid mac)
    (hrecord : (reconcile I .succeed d w).1.record = some mac) :
    reconcile I' .succeed (reconcile I .succeed d w).1 (reconcile I .succeed d w).2 =
      reconcile I .succeed d w := by
  have hframe := frame_reconcile (I := I) h
  refine reconcile_of_steady (hframe.resolves h) hframe.luid hrecord ?_ ?_
  · rw [(Prod.mk.inj (h.perform (I := I))).2]
    exact (pinTable I luid).shows_perform_pin _ _ _
  · intro host hhost
    have hhost' : interfaceMac .succeed w luid = some host := by
      rwa [interfaceMac, hframe.ifEntry] at hhost
    rw [h.reconcile_install, hhost']
    exact routerCacheLookup_put.trans (if_pos rfl)

/-- The pass remembers the MAC, its entry is the only one for the sentinel and permanent,
and a further pass changes nothing, whatever the calls would do. -/
def Converged (I : IpHelper) (d : Daemon) (w : World) (luid : ℕ) (mac : Mac) : Prop :=
  let r := reconcile I .succeed d w
  r.1.record = some mac ∧ PinnedTo luid mac r.2.net4 ∧
    ∀ I', reconcile I' .succeed r.1 r.2 = r

/-- **The Windows service converges.** -/
theorem reconcile_converged (h : Resolves d w luid mac)
    (huniq : AtMostOne (isSentinelEntry luid) w.net4) : Converged I d w luid mac := by
  obtain ⟨hrecord, hpinned⟩ := reconcile_pins (I := I) h huniq
  exact ⟨hrecord, hpinned, fun I' => reconcile_again h hrecord⟩

end WindowsDaemon

/-! ### All three -/

section Converge

variable {env : HostDaemon.Env} {i : HostDaemon.Interface} {hw : HostDaemon.World} {idx : ℕ}
  {gw : IPv6} {lladdr : Text} {A : Arp} {md : MacosDaemon.Daemon} {mw : MacosDaemon.World}
  {I : IpHelper} {wd : WindowsDaemon.Daemon} {ww : WindowsDaemon.World} {luid : ℕ}
  {mmac wmac : Mac}

/-- **The static realizations converge**: from every memory and every table with at most
one entry for the sentinel on the interface, a pass that resolves the router leaves its MAC
pinned and remembered, and a further pass changes nothing. -/
theorem static_neighbor_converges (hstatic : i.staticArp = true)
    (hidx : linkLookup env.links i.name = some idx)
    (hpy : HostDaemon.Resolves env i hw.tables gw lladdr)
    (hpyUniq : AtMostOne (Neigh4.isFor idx i.sentinel) hw.tables.neigh4)
    (hmacos : MacosDaemon.Resolves md mw mmac)
    (hmacosUniq : AtMostOne (MacosDaemon.isSentinelEntry (mw.ifNametoindex md.cfg.ifname)
      md.cfg.sentinelAddr) mw.arp)
    (hwindows : WindowsDaemon.Resolves wd ww luid wmac)
    (hwindowsUniq : AtMostOne (WindowsDaemon.isSentinelEntry luid) ww.net4) :
    HostDaemon.Converged env idx gw lladdr (i.reconcile env hw).2 ∧
      MacosDaemon.Converged A md mw mmac ∧ WindowsDaemon.Converged I wd ww luid wmac :=
  ⟨HostDaemon.reconcile_converged hstatic hpy hidx hpyUniq,
    MacosDaemon.reconcile_converged hmacos hmacosUniq,
    WindowsDaemon.reconcile_converged hwindows hwindowsUniq⟩

end Converge

/-! ### An entry that ARP has learned -/

namespace HostDaemon

/-- `eth0` with a router, without a gate, in static mode. -/
def learnt : Env where
  links := [⟨"eth0".toList, 3, 1⟩]
  routes6 := [⟨0, none, some 3, some 0xfe800000000000000000000000000001#128, none, []⟩]
  neigh6 := [⟨3, some 0xfe800000000000000000000000000001#128, some "02:00:00:00:00:07".toList, 2⟩]
  fault := fun _ => none

/-- `eth0` in static mode, with this MAC pinned some time ago. -/
def pinned : Interface :=
  ⟨"eth0".toList, 50, false, true, "192.0.0.11".toList, none, none,
    some "02:00:00:00:00:07".toList⟩

/-- The sentinel's MAC is learnt and right. -/
def reachable : World :=
  ⟨⟨[], [⟨3, "192.0.0.11".toList, some "02:00:00:00:00:07".toList, 2⟩]⟩, []⟩

end HostDaemon

/-- The macOS table with a dynamic entry that has the router's MAC. -/
def MacosDaemon.withDynamic : MacosDaemon.World :=
  { MacosDaemon.withRouter with
    arp := [⟨⟨RTM_VERSION, RTF_UP, 4, some (.inet 0xc000000b#32),
      some (.link routerMac.toList), none⟩, false⟩] }

/-- The Windows table with a dynamic entry that has the router's MAC. -/
def WindowsDaemon.withDynamic : WindowsDaemon.World :=
  { WindowsDaemon.withRouter with
    net4 := [⟨⟨6, .ipv4 WindowsDaemon.SENTINEL_HOST, routerMac.toList, .reachable⟩, false⟩] }

/-- Over a dynamic entry with the right MAC all three pin the permanent one. -/
theorem static_neighbor_converges_dynamic :
    HostDaemon.Converged HostDaemon.learnt 3 0xfe800000000000000000000000000001#128
        "02:00:00:00:00:07".toList
        (HostDaemon.pinned.reconcile HostDaemon.learnt HostDaemon.reachable).2 ∧
      MacosDaemon.Converged plainArp (MacosDaemon.Daemon.fresh MacosDaemon.en0)
        MacosDaemon.withDynamic routerMac ∧
      WindowsDaemon.Converged plainIpHelper (WindowsDaemon.Daemon.fresh WindowsDaemon.ethernet)
        WindowsDaemon.withDynamic 6 routerMac :=
  static_neighbor_converges rfl (by decide) ⟨fun _ => rfl, ⟨rfl, by decide, rfl, rfl⟩, rfl⟩
    (by decide) ⟨by decide, rfl, rfl⟩ (by decide) ⟨rfl, rfl, rfl, rfl⟩ (by decide)

end V4WithV6Nh
