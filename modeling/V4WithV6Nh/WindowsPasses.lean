import V4WithV6Nh.PowershellDaemon
import V4WithV6Nh.StaticNeighbor

/-!
# What the Service and the Script Leave on Windows

`v4gwd.c` and `v4gwd.ps1` are to be one daemon. This module says what a first pass of the
service and a pass of the script leave of the entry for the sentinel and of the stored value.
The service removes what its flag says it has installed, which is nothing in a first pass;
the script removes the first permanent entry for the sentinel that it finds in the table.

## Main results

* `Managed.gate_eq`, `Managed.router_eq`: both find the same sentinel route and the same
  router.
* `Managed.sameEntry_iff`: the two passes leave the same entry exactly when what they decide
  to pin is the same, or is there already.
* `Managed.sameStored_iff`: they leave the same stored value exactly when they write the same.
-/

namespace V4WithV6Nh.PowershellDaemon

open WindowsDaemon

/-- The interface, by which both know it. -/
structure Managed (cfg : Config) (w : World) (luid ifIndex : ℕ) : Prop where
  byService : resolveLuid (Daemon.fresh cfg) w = some luid
  byScript : getManagedIfIndex cfg.ifarg w = some ifIndex
  index : w.luidToIndex luid = some ifIndex
  index_ne : ifIndex ≠ 0
  /-- An index and its LUID name one interface. -/
  inverse : ∀ l i, w.luidToIndex l = some i ↔ w.indexToLuid i = some l

/-- The index and the LUID of an interface. -/
structure Named (w : World) (luid ifIndex : ℕ) : Prop where
  index : w.luidToIndex luid = some ifIndex
  /-- An index and its LUID name one interface. -/
  inverse : ∀ l i, w.luidToIndex l = some i ↔ w.indexToLuid i = some l

/-- A managed interface has both. -/
theorem Managed.named {cfg : Config} {w : World} {luid ifIndex : ℕ}
    (h : Managed cfg w luid ifIndex) : Named w luid ifIndex :=
  ⟨h.index, h.inverse⟩

/-! ### What both see -/

section Scans

variable {cfg : Config} {w : World} {luid ifIndex : ℕ}

/-- The rows of the interface are the rows with its index. -/
theorem Named.onInterface_eq (h : Named w luid ifIndex) (l : ℕ) :
    onInterface w ifIndex l = decide (l = luid) := by
  rw [onInterface]
  refine decide_eq_decide.mpr ⟨fun hl => ?_, ?_⟩
  · have hluid := (h.inverse l ifIndex).mp hl
    rw [(h.inverse luid ifIndex).mp h.index] at hluid
    exact (Option.some.inj hluid).symm
  · rintro rfl
    exact h.index

/-- **Both find the same sentinel route.** -/
theorem Managed.gate_eq (h : Managed cfg w luid ifIndex) :
    testSentinelRoute w ifIndex = sentinelInFib luid w.forward4 := by
  rw [testSentinelRoute, sentinelInFib, List.any_filter]
  congr 1
  funext r
  rw [isSentinelRoute, h.named.onInterface_eq]
  by_cases hluid : r.interfaceLuid = luid
  · by_cases hlength : r.prefixLength = 0
    · simp [hluid, hlength]
    · simp [hluid, hlength]
  · simp [hluid]

/-- One round of the service's loop over a default route. -/
theorem considerRoute_eq (best : Option (IPv6 × ℕ)) (r : ForwardRow) : considerRoute luid best r =
    if r.interfaceLuid = luid ∧ r.prefixLength = 0 then
      match hopOf r with
      | some e => keepLowest Prod.snd best e
      | none => best
    else best := by
  rw [considerRoute, hopOf]
  by_cases hluid : r.interfaceLuid = luid
  · by_cases hlength : r.prefixLength = 0
    · rw [if_neg (not_not.mpr hluid), if_neg (not_not.mpr hlength), if_pos ⟨hluid, hlength⟩]
      cases r.prefixAddr <;> cases r.nextHop <;> first | rfl | (cases best <;> rfl)
    · rw [if_neg (not_not.mpr hluid), if_pos hlength, if_neg fun h => hlength h.2]
  · rw [if_pos hluid, if_neg fun h => hluid h.1]

/-- **Both find the same router.** -/
theorem Managed.router_eq (h : Managed cfg w luid ifIndex) :
    getDefaultRouterLinkLocal w ifIndex = findDefaultRouter luid w.forward6 := by
  rw [getDefaultRouterLinkLocal, head?_insertionSort, findDefaultRouter, defaultRoutes6,
    List.foldl_filterMap, List.foldl_filter]
  congr 1
  refine List.foldl_ext _ _ _ fun best r _ => ?_
  rw [considerRoute_eq, h.named.onInterface_eq]
  by_cases hrow : r.interfaceLuid = luid ∧ r.prefixLength = 0
  · rw [if_pos hrow, if_pos (by simp [hrow])]
    cases hopOf r <;> rfl
  · rw [if_neg hrow, if_neg (by simpa using hrow)]

/-- The script reads the own MAC of the interface as text. -/
theorem Managed.getInterfaceMac_eq (h : Managed cfg w luid ifIndex) :
    getInterfaceMac w ifIndex = ((w.ifEntry luid).map linkLayerText).filter fun t => t ≠ [] := by
  rw [getInterfaceMac, (h.inverse luid ifIndex).mp h.index]
  rfl

/-- The script sees the addresses of the router's neighbour entries as text. -/
theorem Managed.getRouterMac_eq {S : Shell} {gw : IPv6} (h : Managed cfg w luid ifIndex) :
    getRouterMac S w ifIndex gw = ((w.net6.filter fun r => r.interfaceLuid = luid &&
      r.address = .ipv6 gw).map fun r => linkLayerText r.physicalAddress).find? (isResolved S) := by
  simp only [getRouterMac, h.named.onInterface_eq]

end Scans

/-! ### The entry -/

/-- A permanent entry for the sentinel on the interface has the address. -/
def Pins (luid : ℕ) (net4 : List NetEntry) (bytes : List UInt8) : Prop :=
  ∃ x ∈ net4, x.SameKey (fillSentinelRow luid none) ∧ x.row.state = .permanent ∧
    x.row.physicalAddress = bytes

instance (luid : ℕ) (net4 : List NetEntry) (bytes : List UInt8) :
    Decidable (Pins luid net4 bytes) :=
  inferInstanceAs (Decidable (∃ x ∈ net4, _ ∧ _))

/-- The first permanent entry for the sentinel is on the interface. -/
def LeftoverFirst (luid : ℕ) (net4 : List NetEntry) : Prop :=
  ∃ x, getSentinelNeighbor net4 = some x ∧ x.row.interfaceLuid = luid

section Entry

variable {I : IpHelper} {S : Shell} {cfg : Config} {w : World} {luid ifIndex : ℕ}
  {net4 : List NetEntry} {bytes bytes' : List UInt8}

/-- At most one entry pins at most one address. -/
theorem Pins.unique (huniq : AtMostOne (isSentinelEntry luid) net4) (h : Pins luid net4 bytes)
    (h' : Pins luid net4 bytes') : bytes' = bytes := by
  obtain ⟨x, hx, hkey, -, rfl⟩ := h
  obtain ⟨y, hy, hkey', -, rfl⟩ := h'
  have hsole := filter_eq_singleton huniq hx (decide_eq_true hkey)
  have hy' : y ∈ net4.filter (isSentinelEntry luid) :=
    List.mem_filter.mpr ⟨hy, decide_eq_true hkey'⟩
  rw [hsole, List.mem_singleton] at hy'
  rw [hy']

/-- The first permanent entry pins an address, if it is on the interface. -/
theorem LeftoverFirst.pins (h : LeftoverFirst luid net4) : ∃ bytes, Pins luid net4 bytes := by
  obtain ⟨x, hx, hluid⟩ := h
  have hfound := List.find?_some hx
  rw [Bool.and_eq_true, decide_eq_true_eq, decide_eq_true_eq] at hfound
  exact ⟨_, x, List.mem_of_find?_eq_some hx, ⟨hluid, hfound.1⟩, hfound.2, rfl⟩

/-- A deletion on the interface leaves nothing pinned there. -/
theorem not_pins_delete :
    ¬ Pins luid (I.deleteIpNetEntry2 none (fillSentinelRow luid none) net4).2 bytes := by
  rintro ⟨x, hx, hkey, -⟩
  exact (IpHelper.mem_deleteIpNetEntry2.mp hx).2 hkey

/-- A deletion on another interface changes nothing here. -/
theorem pins_delete_of_ne {luid' : ℕ} (hne : luid' ≠ luid) :
    Pins luid (I.deleteIpNetEntry2 none (fillSentinelRow luid' none) net4).2 bytes ↔
      Pins luid net4 bytes := by
  have hother : ∀ x : NetEntry, x.SameKey (fillSentinelRow luid none) →
      ¬ x.SameKey (fillSentinelRow luid' none) :=
    fun x hkey hkey' => hne (hkey'.1.symm.trans hkey.1)
  constructor
  · rintro ⟨x, hx, hkey, hrest⟩
    exact ⟨x, (IpHelper.mem_deleteIpNetEntry2.mp hx).1, hkey, hrest⟩
  · rintro ⟨x, hx, hkey, hrest⟩
    exact ⟨x, IpHelper.mem_deleteIpNetEntry2.mpr ⟨hx, hother x hkey⟩, hkey, hrest⟩

/-- A creation where there is no entry pins its address. -/
theorem pins_create (hnew : ∀ x ∈ net4, ¬ x.SameKey (fillSentinelRow luid none)) :
    Pins luid (I.create ⟨luid, .ipv4 SENTINEL_HOST, bytes, .permanent⟩ net4) bytes' ↔
      bytes' = bytes := by
  constructor
  · rintro ⟨x, hx, hkey, -, rfl⟩
    rcases (I.mem_create ..).mp hx with rfl | hold
    · rfl
    · exact absurd hkey (hnew x hold)
  · rintro rfl
    exact ⟨_, (I.mem_create ..).mpr (Or.inl rfl), ⟨rfl, rfl⟩, rfl, rfl⟩

/-- What `New-NetNeighbor` does where there is no entry. -/
theorem newNetNeighbor_of_new {mac : Text} (hluid : w.indexToLuid ifIndex = some luid)
    (hnew : ∀ x ∈ w.net4, ¬ x.SameKey (fillSentinelRow luid none))
    (hok : (newNetNeighbor I S w ifIndex mac).1 = .ok ()) :
    ∃ bytes, S.parse mac = some bytes ∧
      ∀ bytes', Pins luid (newNetNeighbor I S w ifIndex mac).2.net4 bytes' ↔ bytes' = bytes := by
  rw [newNetNeighbor, hluid] at hok ⊢
  cases hparse : S.parse mac with
  | none =>
      rw [hparse] at hok
      cases hok
  | some bytes =>
      have hcreate : I.createIpNetEntry2 none ⟨luid, .ipv4 SENTINEL_HOST, bytes, .permanent⟩
          w.net4 = (NO_ERROR, I.create ⟨luid, .ipv4 SENTINEL_HOST, bytes, .permanent⟩ w.net4) :=
        IpHelper.createIpNetEntry2_of_new hnew
      refine ⟨bytes, rfl, fun bytes' => ?_⟩
      simp only [hcreate]
      exact pins_create hnew

/-- **What `Set-SentinelNeighbor` leaves pinned**: the address that it is given, as text. -/
theorem Managed.pins_setSentinelNeighbor {mac : Text} (h : Managed cfg w luid ifIndex)
    (huniq : AtMostOne (isSentinelEntry luid) w.net4)
    (hok : (setSentinelNeighbor I S w ifIndex mac).1 = .ok ()) :
    ∃ bytes, S.parse mac = some bytes ∧
      ∀ bytes', Pins luid (setSentinelNeighbor I S w ifIndex mac).2.net4 bytes' ↔
        bytes' = bytes := by
  have hluid := (h.inverse luid ifIndex).mp h.index
  have hkey : ∀ x : NetEntry, (onInterface w ifIndex x.row.interfaceLuid &&
      x.row.address = .ipv4 SENTINEL_HOST) = true ↔ x.SameKey (fillSentinelRow luid none) := by
    intro x
    rw [h.named.onInterface_eq, Bool.and_eq_true, decide_eq_true_eq, decide_eq_true_eq]
    rfl
  rw [setSentinelNeighbor] at hok ⊢
  cases hcur : w.net4.find? fun x => onInterface w ifIndex x.row.interfaceLuid &&
      x.row.address = .ipv4 SENTINEL_HOST with
  | none =>
      rw [hcur] at hok
      exact newNetNeighbor_of_new hluid
        (fun x hx hfor => List.find?_eq_none.mp hcur x hx ((hkey x).mpr hfor)) hok
  | some cur =>
      rw [hcur] at hok
      have hfound := List.find?_some hcur
      by_cases hquiet : cur.row.state = .permanent ∧
          S.eq (linkLayerText cur.row.physicalAddress) mac = true
      · have hmem := List.mem_of_find?_eq_some hcur
        have hpins : Pins luid w.net4 cur.row.physicalAddress :=
          ⟨cur, hmem, (hkey cur).mp hfound, hquiet.1, rfl⟩
        refine ⟨_, S.parse_of_eq _ _ ((S.eq_symm ..).trans hquiet.2), fun bytes' => ?_⟩
        simp only [if_pos hquiet]
        refine ⟨fun h' => hpins.unique huniq h', ?_⟩
        rintro rfl
        exact hpins
      · simp only [if_neg hquiet] at hok ⊢
        have hgone : ∀ x ∈ (removeNetNeighbor I w ifIndex).net4,
            ¬ x.SameKey (fillSentinelRow luid none) := by
          rw [removeNetNeighbor, hluid]
          exact fun x hx => (IpHelper.mem_deleteIpNetEntry2.mp hx).2
        have hluid' : (removeNetNeighbor I w ifIndex).indexToLuid ifIndex = some luid := by
          rw [removeNetNeighbor, hluid]
          exact hluid
        exact newNetNeighbor_of_new hluid' hgone hok

/-- **What `Remove-SentinelNeighbor` leaves pinned**: nothing, if it finds the entry of the
interface first. -/
theorem Named.pins_removeSentinelNeighbor (h : Named w luid ifIndex) :
    Pins luid (removeSentinelNeighbor I w).net4 bytes ↔
      Pins luid w.net4 bytes ∧ ¬ LeftoverFirst luid w.net4 := by
  rw [removeSentinelNeighbor]
  cases hfirst : getSentinelNeighbor w.net4 with
  | none =>
      have hnot : ¬ LeftoverFirst luid w.net4 := by
        rintro ⟨x, hx, -⟩
        rw [hfirst] at hx
        cases hx
      simp only [Option.bind_none]
      exact (and_iff_left hnot).symm
  | some x =>
      rw [Option.bind_some]
      by_cases hx : x.row.interfaceLuid = luid
      · have hleft : LeftoverFirst luid w.net4 := ⟨x, hfirst, hx⟩
        rw [hx, h.index]
        simp only [removeNetNeighbor, (h.inverse luid ifIndex).mp h.index]
        exact iff_of_false not_pins_delete fun h' => h'.2 hleft
      · have hnot : ¬ LeftoverFirst luid w.net4 := by
          rintro ⟨y, hy, hluid⟩
          rw [hfirst] at hy
          exact hx (Option.some.inj hy ▸ hluid)
        rw [and_iff_left hnot]
        cases hindex : w.luidToIndex x.row.interfaceLuid with
        | none => rfl
        | some i =>
            simp only [removeNetNeighbor, (h.inverse _ i).mp hindex]
            exact pins_delete_of_ne hx

end Entry

/-! ### Two passes -/

/-- The gate of `Invoke-Reconcile`. -/
def gate (cfg : Config) (w : World) (ifIndex : ℕ) : Bool :=
  !cfg.requireSentinelRoute || testSentinelRoute w ifIndex

/-- **Both gates open together.** -/
theorem Managed.script_gate {cfg : Config} {w : World} {luid ifIndex : ℕ}
    (h : Managed cfg w luid ifIndex) :
    gate cfg w ifIndex = WindowsDaemon.gate .succeed cfg luid w := by
  rw [gate, h.gate_eq]
  rfl

/-- The decision of a pass of the script. -/
def action (S : Shell) (cfg : Config) (w : World) (ifIndex : ℕ) : PinAction Text :=
  pinAction (gate cfg w ifIndex) (resolvedMac S w ifIndex) (storedMac w ifIndex)

/-- What a pass of the script writes as the stored value of the own MAC. -/
def cacheWrite (S : Shell) (cfg : Config) (w : World) (ifIndex : ℕ) : Option Text :=
  if gate cfg w ifIndex then
    match resolvedMac S w ifIndex, getInterfaceMac w ifIndex with
    | some mac, some hostMac =>
        if (w.registry hostMac).any fun cached => S.eq cached mac then none else some mac
    | _, _ => none
  else none

/-- What a pass of the service writes as the stored value of the own MAC. -/
def serviceWrite (cfg : Config) (luid : ℕ) (w : World) : Option Text :=
  if WindowsDaemon.gate .succeed cfg luid w then
    match WindowsDaemon.resolvedMac .succeed luid w, interfaceMac .succeed w luid with
    | some mac, some host =>
        if routerCacheLookup .succeed w.registry host = some mac then none
        else some (macStrReg mac)
    | _, _ => none
  else none

section Passes

variable {I : IpHelper} {S : Shell} {cfg : Config} {w : World} {luid ifIndex : ℕ}

/-- `Remove-SentinelNeighbor` leaves the registry alone. -/
theorem removeSentinelNeighbor_registry : (removeSentinelNeighbor I w).registry = w.registry := by
  rw [removeSentinelNeighbor]
  split
  · rfl
  · rw [removeNetNeighbor]
    split <;> rfl

/-- `Set-SentinelNeighbor` leaves the registry alone. -/
theorem setSentinelNeighbor_registry {mac : Text} :
    (setSentinelNeighbor I S w ifIndex mac).2.registry = w.registry := by
  have hnew : ∀ w : World, (newNetNeighbor I S w ifIndex mac).2.registry = w.registry := by
    intro w
    rw [newNetNeighbor]
    split <;> rfl
  have hremove : (removeNetNeighbor I w ifIndex).registry = w.registry := by
    rw [removeNetNeighbor]
    split <;> rfl
  rw [setSentinelNeighbor]
  split
  · split
    · rfl
    · rw [hnew, hremove]
  · exact hnew w

/-- **A pass of the script carries out its decision.** -/
theorem invokeReconcileOn_action :
    ((invokeReconcileOn I S cfg w ifIndex).1, (invokeReconcileOn I S cfg w ifIndex).2.net4) =
      match action S cfg w ifIndex with
      | .pin mac => ((setSentinelNeighbor I S w ifIndex mac).1,
          (setSentinelNeighbor I S w ifIndex mac).2.net4)
      | .remove => (.ok (), (removeSentinelNeighbor I w).net4) := by
  rw [invokeReconcileOn, action, pinAction, gate]
  by_cases hgate : cfg.requireSentinelRoute = true ∧ ¬ testSentinelRoute w ifIndex = true
  · rw [if_pos hgate, if_neg (by simpa using hgate)]
  · rw [if_neg hgate,
      if_pos (by simpa [Bool.or_eq_true, Classical.or_iff_not_imp_left] using hgate)]
    cases resolvedMac S w ifIndex with
    | some mac =>
        simp only [Option.some_or]
        rcases setSentinelNeighbor I S w ifIndex mac with ⟨_ | _, w'⟩
        · rfl
        · cases getInterfaceMac w ifIndex <;> rfl
    | none =>
        simp only [Option.none_or]
        cases storedMac w ifIndex <;> rfl

/-- What a pass of the script that raises nothing makes of the stored values. -/
theorem registry_invokeReconcileOn (hok : (invokeReconcileOn I S cfg w ifIndex).1 = .ok ()) :
    (invokeReconcileOn I S cfg w ifIndex).2.registry =
      match cacheWrite S cfg w ifIndex, getInterfaceMac w ifIndex with
      | some value, some hostMac => Function.update w.registry hostMac (some value)
      | _, _ => w.registry := by
  rw [invokeReconcileOn] at hok ⊢
  rw [cacheWrite, gate]
  by_cases hgate : cfg.requireSentinelRoute = true ∧ ¬ testSentinelRoute w ifIndex = true
  · rw [if_pos hgate, if_neg (by simpa using hgate)]
    exact removeSentinelNeighbor_registry
  · rw [if_neg hgate,
      if_pos (by simpa [Bool.or_eq_true, Classical.or_iff_not_imp_left] using hgate)]
    rw [if_neg hgate] at hok
    cases hresolved : resolvedMac S w ifIndex with
    | none =>
        simp only
        split
        · exact setSentinelNeighbor_registry
        · exact removeSentinelNeighbor_registry
    | some mac =>
        rw [hresolved] at hok
        simp only at hok ⊢
        have hset := @setSentinelNeighbor_registry I S w ifIndex mac
        generalize setSentinelNeighbor I S w ifIndex mac = r at hok hset ⊢
        obtain ⟨_ | _, w'⟩ := r
        · cases hok
        · have hset' : w'.registry = w.registry := hset
          cases hhost : getInterfaceMac w ifIndex with
          | none => exact hset'
          | some hostMac =>
              simp only [setCachedRouterMac, hset']
              by_cases hany : ((w.registry hostMac).any fun cached => S.eq cached mac) = true
              · simp only [if_pos hany]
              · simp only [if_neg hany]

/-- A first pass of the service works on the managed interface. -/
theorem Managed.reconcile_eq (h : Managed cfg w luid ifIndex) :
    reconcile I .succeed (Daemon.fresh cfg) w =
      reconcileOn I .succeed { Daemon.fresh cfg with luid := some luid } luid w := by
  rw [reconcile, h.byService]
  simp only [h.index]

/-- What a first pass of the service makes of the table. -/
theorem Managed.net4_reconcile (h : Managed cfg w luid ifIndex) :
    (reconcile I .succeed (Daemon.fresh cfg) w).2.net4 =
      match WindowsDaemon.action .succeed cfg luid w with
      | .pin mac => (pinTable I luid).pin mac w.net4
      | .remove => w.net4 := by
  have hpass := @reconcileOn_succeed I { Daemon.fresh cfg with luid := some luid } w luid
  rw [h.reconcile_eq, (Prod.mk.inj hpass).2]
  change ((pinTable I luid).perform none w.net4 (WindowsDaemon.action .succeed cfg luid w)).2 = _
  cases WindowsDaemon.action .succeed cfg luid w with
  | pin mac => rw [PinTable.perform, if_neg fun hquiet => (Option.some_ne_none mac) hquiet.1.symm]
  | remove => rfl

/-- What a pass of the service makes of the stored values. -/
theorem registry_reconcileOn {d : Daemon} (hcfg : d.cfg = cfg) :
    (reconcileOn I .succeed d luid w).2.registry =
    match serviceWrite cfg luid w, interfaceMac .succeed w luid with
    | some value, some host => Function.update w.registry (macStrReg host) (some value)
    | _, _ => w.registry := by
  rw [reconcileOn, serviceWrite, hcfg]
  cases hgate : WindowsDaemon.gate .succeed cfg luid w with
  | false => exact withdraw_registry .succeed
  | true =>
      cases hresolved : WindowsDaemon.resolvedMac .succeed luid w with
      | none =>
          simp only [not_true_eq_false, if_false, if_true]
          split
          · exact install_registry .succeed
          · exact withdraw_registry .succeed
      | some mac =>
          simp only [not_true_eq_false, if_false, if_true]
          cases hhost : interfaceMac .succeed w luid with
          | none => exact install_registry .succeed
          | some host =>
              simp only [install_registry, routerCachePut]
              by_cases hsame : routerCacheLookup .succeed w.registry host = some mac
              · simp only [if_pos hsame]
              · simp only [if_neg hsame]
                rfl

/-- The own MAC that the service reads has the bytes of the interface. -/
theorem toList_of_interfaceMac {own : List UInt8} {host : Mac} (hown : w.ifEntry luid = some own)
    (hhost : interfaceMac .succeed w luid = some host) : own = host.toList := by
  rw [interfaceMac, hown] at hhost
  simp only [Calls.succeed, Bool.false_eq_true, if_false] at hhost
  split at hhost
  · rw [← Option.some.inj hhost]
    rfl
  · cases hhost

/-- The stored value of the own MAC after a pass of the service. -/
theorem Managed.stored_reconcile {own : List UInt8} (h : Managed cfg w luid ifIndex)
    (hown : w.ifEntry luid = some own) :
    (reconcile I .succeed (Daemon.fresh cfg) w).2.registry (linkLayerText own) =
      (serviceWrite cfg luid w).or (w.registry (linkLayerText own)) := by
  have hregistry := @registry_reconcileOn I cfg w luid { Daemon.fresh cfg with luid := some luid }
    rfl
  rw [h.reconcile_eq, hregistry]
  by_cases hlength : own.length = 6
  · have hhost : interfaceMac .succeed w luid = some ⟨own, hlength⟩ := by
      simp [interfaceMac, Calls.succeed, hown, hlength]
    rw [hhost]
    cases serviceWrite cfg luid w with
    | none => rfl
    | some value => exact Function.update_self ..
  · have hhost : interfaceMac .succeed w luid = none := by
      simp [interfaceMac, Calls.succeed, hown, hlength]
    have hwrite : serviceWrite cfg luid w = none := by
      rw [serviceWrite, hhost]
      cases WindowsDaemon.resolvedMac .succeed luid w <;> simp
    rw [hhost, hwrite]
    rfl

/-- The stored value of the own MAC after a pass of the script that raises nothing. -/
theorem Managed.stored_invokeReconcileOn {own : List UInt8} (h : Managed cfg w luid ifIndex)
    (hok : (invokeReconcileOn I S cfg w ifIndex).1 = .ok ()) (hown : w.ifEntry luid = some own) :
    (invokeReconcileOn I S cfg w ifIndex).2.registry (linkLayerText own) =
      (cacheWrite S cfg w ifIndex).or (w.registry (linkLayerText own)) := by
  rw [registry_invokeReconcileOn hok]
  have hhost := h.getInterfaceMac_eq
  rw [hown, Option.map_some] at hhost
  by_cases htext : linkLayerText own = []
  · have hnone : getInterfaceMac w ifIndex = none := by
      rw [hhost, Option.filter_some, if_neg (by simpa using htext)]
    have hwrite : cacheWrite S cfg w ifIndex = none := by
      rw [cacheWrite, hnone]
      cases resolvedMac S w ifIndex <;> simp
    rw [hnone, hwrite]
    rfl
  · have hsome : getInterfaceMac w ifIndex = some (linkLayerText own) := by
      rw [hhost, Option.filter_some, if_pos (by simpa using htext)]
    rw [hsome]
    cases cacheWrite S cfg w ifIndex with
    | none => rfl
    | some value => exact Function.update_self ..

/-- What a pass of the service writes is not what is stored. -/
theorem serviceWrite_ne {own : List UInt8} {value : Text} (hown : w.ifEntry luid = some own)
    (hwrite : serviceWrite cfg luid w = some value) :
    w.registry (linkLayerText own) ≠ some value := by
  intro hstored
  rw [serviceWrite] at hwrite
  split at hwrite
  · split at hwrite
    · rename_i mac host _ hhost
      split at hwrite
      · cases hwrite
      · rename_i hlookup
        obtain rfl := Option.some.inj hwrite
        have hhost' : linkLayerText own = macStrReg host := by
          rw [toList_of_interfaceMac hown hhost]
          rfl
        rw [hhost'] at hstored
        exact hlookup (routerCacheLookup_of_registry hstored)
    · cases hwrite
  · cases hwrite

/-- What a pass of the script writes is not what is stored. -/
theorem Managed.cacheWrite_ne {own : List UInt8} {value : Text} (h : Managed cfg w luid ifIndex)
    (hown : w.ifEntry luid = some own) (hwrite : cacheWrite S cfg w ifIndex = some value) :
    w.registry (linkLayerText own) ≠ some value := by
  intro hstored
  have hhostMac := h.getInterfaceMac_eq
  rw [hown, Option.map_some, Option.filter_some] at hhostMac
  rw [cacheWrite] at hwrite
  split at hwrite
  · split at hwrite
    · rename_i mac hostMac _ hhost
      rw [hhostMac] at hhost
      split at hhost
      · obtain rfl := Option.some.inj hhost
        split at hwrite
        · cases hwrite
        · rename_i hany
          obtain rfl := Option.some.inj hwrite
          rw [hstored] at hany
          exact hany (S.eq_refl mac)
      · cases hhost
    · cases hwrite
  · cases hwrite

/-- Two writes that change something leave the same exactly when they are the same. -/
theorem or_eq_or_iff {a b v : Option Text} (ha : ∀ x, a = some x → v ≠ some x)
    (hb : ∀ x, b = some x → v ≠ some x) : a.or v = b.or v ↔ a = b := by
  cases a with
  | none =>
      cases b with
      | none => exact iff_of_true rfl rfl
      | some y => exact iff_of_false (hb y rfl) (by simp)
  | some x =>
      cases b with
      | none => exact iff_of_false (ha x rfl).symm (by simp)
      | some y => rfl

end Passes

/-! ### Agreement -/

section Agreement

variable {I : IpHelper} {S : Shell} {cfg : Config} {w : World} {luid ifIndex : ℕ}

/-- A first pass of the service and a pass of the script leave the same permanent entry for
the sentinel on the interface, and the same stored value for its own MAC. -/
def SameOutcome (I : IpHelper) (S : Shell) (cfg : Config) (w : World) (luid : ℕ) : Prop :=
  let service := (reconcile I .succeed (Daemon.fresh cfg) w).2
  let script := (invokeReconcile I S cfg w).2
  (∀ bytes, Pins luid service.net4 bytes ↔ Pins luid script.net4 bytes) ∧
    ∀ own, w.ifEntry luid = some own →
      service.registry (linkLayerText own) = script.registry (linkLayerText own)

/-- Both pin the same address, or neither pins any and the first permanent entry for the
sentinel is not on the interface; or one pins none and the entry has the address of the other
already. -/
def SameEntry (S : Shell) (luid : ℕ) (net4 : List NetEntry) : Option Mac → Option Text → Prop
  | some mac, some text => S.parse text = some mac.toList
  | none, none => ¬ LeftoverFirst luid net4
  | some mac, none => Pins luid net4 mac.toList ∧ ¬ LeftoverFirst luid net4
  | none, some text => ∃ bytes, S.parse text = some bytes ∧ Pins luid net4 bytes

/-- The pass of the script is a pass on the interface. -/
theorem Managed.invokeReconcile_eq (h : Managed cfg w luid ifIndex) :
    invokeReconcile I S cfg w = invokeReconcileOn I S cfg w ifIndex := by
  rw [invokeReconcile, h.byScript]
  exact if_neg h.index_ne

/-- Both leave the same stored value exactly when both write the same. -/
theorem Managed.sameStored_iff (h : Managed cfg w luid ifIndex)
    (hok : (invokeReconcileOn I S cfg w ifIndex).1 = .ok ()) :
    (∀ own, w.ifEntry luid = some own →
      (reconcile I .succeed (Daemon.fresh cfg) w).2.registry (linkLayerText own) =
        (invokeReconcileOn I S cfg w ifIndex).2.registry (linkLayerText own)) ↔
      serviceWrite cfg luid w = cacheWrite S cfg w ifIndex := by
  cases hown : w.ifEntry luid with
  | none =>
      have hservice : serviceWrite cfg luid w = none := by
        have hhost : interfaceMac .succeed w luid = none := by
          simp [interfaceMac, Calls.succeed, hown]
        rw [serviceWrite, hhost]
        cases WindowsDaemon.resolvedMac .succeed luid w <;> simp
      have hscript : cacheWrite S cfg w ifIndex = none := by
        have hhost : getInterfaceMac w ifIndex = none := by
          rw [h.getInterfaceMac_eq, hown]
          rfl
        rw [cacheWrite, hhost]
        cases resolvedMac S w ifIndex <;> simp
      rw [hservice, hscript]
      exact iff_of_true (fun _ hnone => by cases hnone) rfl
  | some own =>
      have hiff := or_eq_or_iff (v := w.registry (linkLayerText own))
        (fun x (hwrite : serviceWrite cfg luid w = some x) => serviceWrite_ne hown hwrite)
        (fun _ hwrite => h.cacheWrite_ne (S := S) hown hwrite)
      rw [← hiff, ← h.stored_reconcile (I := I) hown, ← h.stored_invokeReconcileOn hok hown]
      exact ⟨fun hall => hall own rfl, fun heq _ hsome => Option.some.inj hsome ▸ heq⟩

/-- What the service pins is pinned alone. -/
theorem pins_pin {mac : Mac} {bytes : List UInt8} :
    Pins luid ((pinTable I luid).pin mac w.net4) bytes ↔ bytes = mac.toList :=
  pins_create fun _ hx => (IpHelper.mem_deleteIpNetEntry2.mp hx).2

/-- Both leave the same entry exactly when both choose the same. -/
theorem Managed.sameEntry_iff (h : Managed cfg w luid ifIndex)
    (huniq : AtMostOne (isSentinelEntry luid) w.net4)
    (hok : (invokeReconcileOn I S cfg w ifIndex).1 = .ok ()) :
    (∀ bytes, Pins luid (reconcile I .succeed (Daemon.fresh cfg) w).2.net4 bytes ↔
      Pins luid (invokeReconcileOn I S cfg w ifIndex).2.net4 bytes) ↔
      SameEntry S luid w.net4 (WindowsDaemon.action .succeed cfg luid w).mac
        (action S cfg w ifIndex).mac := by
  obtain ⟨hraised, hscript⟩ := Prod.mk.inj (@invokeReconcileOn_action I S cfg w ifIndex)
  rw [hok] at hraised
  rw [h.net4_reconcile, hscript]
  cases hscriptAction : action S cfg w ifIndex with
  | pin text =>
      rw [hscriptAction] at hraised
      obtain ⟨read, hread, hpins⟩ := h.pins_setSentinelNeighbor huniq hraised.symm
      simp only [hpins]
      cases WindowsDaemon.action .succeed cfg luid w with
      | pin mac =>
          simp only [pins_pin, PinAction.mac, SameEntry, hread, Option.some.injEq]
          constructor
          · exact fun hsame => ((hsame mac.toList).mp rfl).symm
          · rintro rfl
            exact fun _ => Iff.rfl
      | remove =>
          simp only [PinAction.mac, SameEntry, hread, Option.some.injEq, exists_eq_left']
          constructor
          · exact fun hsame => (hsame read).mpr rfl
          · exact fun hold bytes => ⟨fun h' => hold.unique huniq h', fun h' => h' ▸ hold⟩
  | remove =>
      simp only [h.named.pins_removeSentinelNeighbor]
      cases WindowsDaemon.action .succeed cfg luid w with
      | pin mac =>
          simp only [pins_pin, PinAction.mac, SameEntry]
          constructor
          · exact fun hsame => (hsame mac.toList).mp rfl
          · rintro ⟨hold, hnot⟩ bytes
            exact ⟨fun h' => ⟨h' ▸ hold, hnot⟩, fun h' => hold.unique huniq h'.1⟩
      | remove =>
          simp only [PinAction.mac, SameEntry]
          constructor
          · rintro hsame hleft
            obtain ⟨bytes, hold⟩ := hleft.pins
            exact ((hsame bytes).mp hold).2 hleft
          · exact fun hnot bytes => (and_iff_left hnot).symm

end Agreement

end V4WithV6Nh.PowershellDaemon
