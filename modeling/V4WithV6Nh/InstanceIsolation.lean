import V4WithV6Nh.WindowsDecisions

/-!
# Several Instances of the PowerShell Daemon

An instance of `v4gwd.ps1` manages one interface. What it pins, it pins there:
`Set-SentinelNeighbor` looks for the entry by the index of the interface. What it removes is
the first permanent entry for the sentinel on any interface, because
`Get-SentinelNeighbor`, which is to find "our permanent sentinel neighbor", looks for it by
its address alone. `v4gwd.c` deletes the entry of its own interface.

## Main results

* `elsewhere_setSentinelNeighbor`: a pass that pins leaves the entries of other interfaces.
* `stays_on_interface_iff`: a pass that withdraws and the end of the script do so exactly
  when the first permanent entry is on their own interface.
* `elsewhere_shutdown_iff`: the end of the script also when the interface is gone.
-/

namespace V4WithV6Nh.PowershellDaemon

open WindowsDaemon

/-- The entries of other interfaces are the same in both tables. -/
def Elsewhere (luid : ℕ) (net4 net4' : List NetEntry) : Prop :=
  ∀ x : NetEntry, x.row.interfaceLuid ≠ luid → (x ∈ net4' ↔ x ∈ net4)

/-- No permanent entry for the sentinel is on the interface. -/
def Cleared (luid : ℕ) (net4 : List NetEntry) : Prop := ∀ bytes, ¬ Pins luid net4 bytes

/-- The entry that `Get-SentinelNeighbor` finds first, if it is listed with the index of an
interface, is on this interface. -/
def OwnFirst (w : World) (luid : ℕ) : Prop :=
  ∀ cur, getSentinelNeighbor w.net4 = some cur →
    (w.luidToIndex cur.row.interfaceLuid).isSome = true → cur.row.interfaceLuid = luid

section Frame

variable {I : IpHelper} {S : Shell} {cfg : Config} {w : World} {luid ifIndex : ℕ} {mac : Text}

theorem Elsewhere.refl (luid : ℕ) (net4 : List NetEntry) : Elsewhere luid net4 net4 :=
  fun _ _ => Iff.rfl

theorem Elsewhere.trans {net4 net4' net4'' : List NetEntry} (h : Elsewhere luid net4 net4')
    (h' : Elsewhere luid net4' net4'') : Elsewhere luid net4 net4'' :=
  fun x hx => (h' x hx).trans (h x hx)

/-- A deletion on the interface leaves other interfaces alone. -/
theorem elsewhere_removeNetNeighbor (hluid : w.indexToLuid ifIndex = some luid) :
    Elsewhere luid w.net4 (removeNetNeighbor I w ifIndex).net4 := by
  intro x hx
  rw [removeNetNeighbor, hluid]
  exact IpHelper.mem_deleteIpNetEntry2.trans (and_iff_left fun hkey => hx hkey.1)

/-- A creation on the interface leaves other interfaces alone, also one that is refused. -/
theorem elsewhere_newNetNeighbor (hluid : w.indexToLuid ifIndex = some luid) :
    Elsewhere luid w.net4 (newNetNeighbor I S w ifIndex mac).2.net4 := by
  intro x hx
  rw [newNetNeighbor, hluid]
  cases S.parse mac with
  | none => exact Iff.rfl
  | some bytes =>
      simp only [IpHelper.createIpNetEntry2, attempt]
      split
      · exact Iff.rfl
      · refine (I.mem_create ..).trans (or_iff_right ?_)
        rintro rfl
        exact hx rfl

/-- **`Set-SentinelNeighbor` leaves other interfaces alone.** -/
theorem elsewhere_setSentinelNeighbor (hluid : w.indexToLuid ifIndex = some luid) :
    Elsewhere luid w.net4 (setSentinelNeighbor I S w ifIndex mac).2.net4 := by
  rw [setSentinelNeighbor]
  split
  · split
    · exact Elsewhere.refl luid w.net4
    · have hluid' : (removeNetNeighbor I w ifIndex).indexToLuid ifIndex = some luid := by
        rw [removeNetNeighbor, hluid]
        exact hluid
      exact (elsewhere_removeNetNeighbor hluid).trans (elsewhere_newNetNeighbor hluid')
  · exact elsewhere_newNetNeighbor hluid

/-- **Exactly when `Remove-SentinelNeighbor` leaves other interfaces alone**, whether there is
an interface with the LUID or not. -/
theorem elsewhere_removeSentinelNeighbor_iff
    (hinverse : ∀ l i, w.luidToIndex l = some i ↔ w.indexToLuid i = some l) :
    Elsewhere luid w.net4 (removeSentinelNeighbor I w).net4 ↔ OwnFirst w luid := by
  rw [removeSentinelNeighbor, OwnFirst]
  cases hfirst : getSentinelNeighbor w.net4 with
  | none => exact iff_of_true (Elsewhere.refl luid w.net4) fun cur hcur => by cases hcur
  | some cur =>
      rw [Option.bind_some]
      cases hindex : w.luidToIndex cur.row.interfaceLuid with
      | none =>
          refine iff_of_true (Elsewhere.refl luid w.net4) fun cur' hcur' hsome => ?_
          rw [← Option.some.inj hcur', hindex] at hsome
          cases hsome
      | some i =>
          have hluid := (hinverse _ i).mp hindex
          by_cases hown : cur.row.interfaceLuid = luid
          · rw [hown] at hluid
            refine iff_of_true (elsewhere_removeNetNeighbor hluid) fun cur' hcur' _ => ?_
            rw [← Option.some.inj hcur', hown]
          · refine iff_of_false (fun hframe => ?_) fun hfirst' => ?_
            · -- the entry itself is gone
              have hfound := List.find?_some hfirst
              rw [Bool.and_eq_true, decide_eq_true_eq, decide_eq_true_eq] at hfound
              have hkept := (hframe cur hown).mpr (List.mem_of_find?_eq_some hfirst)
              simp only [removeNetNeighbor, hluid] at hkept
              exact (IpHelper.mem_deleteIpNetEntry2.mp hkept).2 ⟨rfl, hfound.1⟩
            · exact hown (hfirst' cur rfl (by rw [hindex]; rfl))

/-- **Exactly when `Remove-SentinelNeighbor` clears the interface**: it finds the entry of the
interface first, or there is none. -/
theorem Named.cleared_removeSentinelNeighbor_iff (h : Named w luid ifIndex) :
    Cleared luid (removeSentinelNeighbor I w).net4 ↔
      (Cleared luid w.net4 ∨ LeftoverFirst luid w.net4) := by
  rw [Cleared, Cleared]
  simp only [h.pins_removeSentinelNeighbor, not_and, not_not]
  by_cases hfirst : LeftoverFirst luid w.net4
  · exact iff_of_true (fun _ _ => hfirst) (Or.inr hfirst)
  · rw [or_iff_left hfirst]
    exact forall_congr' fun bytes =>
      ⟨fun h hpins => hfirst (h hpins), fun h hpins => absurd hpins h⟩

/-- What a pass on the interface makes of the table. -/
theorem net4_invokeReconcile (hmanaged : getManagedIfIndex cfg.ifarg w = some ifIndex)
    (hne : ifIndex ≠ 0) : (invokeReconcile I S cfg w).2.net4 =
      match action S cfg w ifIndex with
      | .pin mac => (setSentinelNeighbor I S w ifIndex mac).2.net4
      | .remove => (removeSentinelNeighbor I w).net4 := by
  have hpass : invokeReconcile I S cfg w = invokeReconcileOn I S cfg w ifIndex := by
    rw [invokeReconcile, hmanaged]
    exact if_neg hne
  have haction := congrArg Prod.snd (@invokeReconcileOn_action I S cfg w ifIndex)
  rw [hpass]
  cases hdecision : action S cfg w ifIndex with
  | pin mac =>
      rw [hdecision] at haction
      exact haction
  | remove =>
      rw [hdecision] at haction
      exact haction

/-- **The end of the script** stays on the interface exactly when the first permanent entry is
on it; if the interface is gone, when no permanent entry is listed with an index first. -/
theorem elsewhere_shutdown_iff
    (hinverse : ∀ l i, w.luidToIndex l = some i ↔ w.indexToLuid i = some l) :
    (Elsewhere luid w.net4 (shutdown I w).net4 ↔ OwnFirst w luid) ∧
    (w.luidToIndex luid = none → (OwnFirst w luid ↔ ∀ cur,
      getSentinelNeighbor w.net4 = some cur → w.luidToIndex cur.row.interfaceLuid = none)) := by
  refine ⟨elsewhere_removeSentinelNeighbor_iff hinverse, fun hgone =>
    forall_congr' fun cur => forall_congr' fun _ => ?_⟩
  constructor
  · intro hown
    by_contra hsome
    have hluid := hown (Option.isSome_iff_ne_none.mpr hsome)
    exact hsome (hluid ▸ hgone)
  · intro hnone hsome
    rw [hnone] at hsome
    cases hsome

/-- **Exactly when an instance stays on its interface**: for every table and any entries for
the sentinel on any interfaces, a pass that pins does; a pass that withdraws and the end of
the script do exactly when the first permanent entry is their own; and a pass that withdraws
leaves no permanent entry on its interface exactly when it finds that one first, or there is
none. All this is said of an interface that is there; `elsewhere_shutdown_iff` has the end of
the script for one that is gone. -/
theorem stays_on_interface_iff (h : Named w luid ifIndex)
    (hmanaged : getManagedIfIndex cfg.ifarg w = some ifIndex) (hne : ifIndex ≠ 0) :
    (Elsewhere luid w.net4 (invokeReconcile I S cfg w).2.net4 ↔
      (action S cfg w ifIndex = .remove → OwnFirst w luid)) ∧
    (Elsewhere luid w.net4 (shutdown I w).net4 ↔ OwnFirst w luid) ∧
    (action S cfg w ifIndex = .remove →
      (Cleared luid (invokeReconcile I S cfg w).2.net4 ↔
        (Cleared luid w.net4 ∨ LeftoverFirst luid w.net4))) := by
  have hluid := (h.inverse luid ifIndex).mp h.index
  rw [net4_invokeReconcile hmanaged hne]
  refine ⟨?_, (elsewhere_shutdown_iff h.inverse).1, fun hremove => ?_⟩
  · cases action S cfg w ifIndex with
    | pin mac => exact iff_of_true (elsewhere_setSentinelNeighbor hluid) fun hpin => by cases hpin
    | remove =>
        exact (elsewhere_removeSentinelNeighbor_iff h.inverse).trans
          ⟨fun hfirst _ => hfirst, fun hfirst => hfirst rfl⟩
  · rw [hremove]
    exact h.cleared_removeSentinelNeighbor_iff

end Frame

/-! ### Two instances -/

/-- Two interfaces without a router: index 4 and LUID 6, index 5 and LUID 7. -/
def twoAdapters (net4 : List NetEntry) : World :=
  { adapter [] [] net4 with
    indexToLuid := fun i => if i = 4 then some 6 else if i = 5 then some 7 else none
    luidToIndex := fun l => if l = 6 then some 4 else if l = 7 then some 5 else none }

/-- The permanent entry of the instance on the other interface. -/
def neighbouring : NetEntry :=
  ⟨⟨7, .ipv4 SENTINEL_HOST, routerMac.toList, .permanent⟩, true⟩

theorem named_twoAdapters (net4 : List NetEntry) : Named (twoAdapters net4) 6 4 where
  index := rfl
  inverse l i := by
    simp only [twoAdapters]
    by_cases hl : l = 6
    · by_cases hi : i = 4 <;> by_cases hi' : i = 5 <;> simp [hl, hi, hi', eq_comm]
    · by_cases hl' : l = 7 <;> by_cases hi : i = 4 <;> by_cases hi' : i = 5 <;>
        simp [hl, hl', hi, hi', eq_comm]

theorem getManagedIfIndex_twoAdapters (net4 : List NetEntry) :
    getManagedIfIndex ethernet.ifarg (twoAdapters net4) = some 4 := by
  simp only [getManagedIfIndex]
  rw [if_neg (by decide)]
  rfl

/-- With its own entry first an instance stays on its interface. -/
theorem stays_with_own_first :
    Elsewhere 6 [leftBehind, neighbouring]
      (shutdown plainIpHelper (twoAdapters [leftBehind, neighbouring])).net4 := by
  refine (stays_on_interface_iff (S := plainShell) (named_twoAdapters _)
    (getManagedIfIndex_twoAdapters _) (by decide)).2.1.mpr fun cur hcur _ => ?_
  obtain rfl := Option.some.inj hcur
  rfl

/-- **The entry of another instance is removed**: its entry comes first in the table; a pass
that withdraws, and the end of the script, remove it and leave their own. -/
theorem removes_neighbouring :
    action plainShell ethernet (twoAdapters [neighbouring, leftBehind]) 4 = .remove ∧
    ¬ Elsewhere 6 [neighbouring, leftBehind] (invokeReconcile plainIpHelper plainShell ethernet
      (twoAdapters [neighbouring, leftBehind])).2.net4 ∧
    ¬ Elsewhere 6 [neighbouring, leftBehind]
      (shutdown plainIpHelper (twoAdapters [neighbouring, leftBehind])).net4 ∧
    ¬ Cleared 6 (invokeReconcile plainIpHelper plainShell ethernet
      (twoAdapters [neighbouring, leftBehind])).2.net4 := by
  have hpass : (invokeReconcile plainIpHelper plainShell ethernet
      (twoAdapters [neighbouring, leftBehind])).2.net4 = [leftBehind] := by decide
  have hend : (shutdown plainIpHelper (twoAdapters [neighbouring, leftBehind])).net4 =
      [leftBehind] := by decide
  have hother : ¬ Elsewhere 6 [neighbouring, leftBehind] [leftBehind] := fun h =>
    absurd ((h neighbouring (by decide)).mpr List.mem_cons_self) (by decide)
  refine ⟨rfl, ?_, ?_, fun hcleared => ?_⟩
  · rw [hpass]
    exact hother
  · rw [hend]
    exact hother
  · rw [hpass] at hcleared
    exact hcleared routerMac.toList ⟨leftBehind, List.mem_singleton_self _, ⟨rfl, rfl⟩, rfl, rfl⟩

end V4WithV6Nh.PowershellDaemon
