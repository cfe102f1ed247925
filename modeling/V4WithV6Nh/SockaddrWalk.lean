import Mathlib.Data.Vector.Basic
import V4WithV6Nh.PackedRecords

/-!
# The Socket Addresses of a Routing Message

Behind the header of a routing message its socket addresses lie back to back, in the order
of the bits of `rtm_addrs` that say which ones there are. On macOS each is padded to four
bytes, and `get_rti_info` goes through the eight slots; on FreeBSD each is padded to a
`long`, and the two scans go through the first three. The slots of an `RtMsg` are what these
walks find.

## Main results

* `MacosDaemon.getRtiInfo_packed`: `get_rti_info` finds every socket address at its start,
  and nothing in the other slots, without a look behind the last one.
* `FreebsdDaemon.packedAddrs_packed`: so do the scans on FreeBSD.
-/

namespace V4WithV6Nh

/-- `RTAX_MAX`, the number of slots. -/
def RTAX_MAX : ℕ := 8

/-- `addrs & (1 << i)`. -/
def hasAddr (addrs : BitVec 32) (i : ℕ) : Bool := decide (addrs &&& (1#32 <<< i) ≠ 0)

/-- How many socket addresses come before slot `i`. -/
def addrsBefore (addrs : BitVec 32) (i : ℕ) : ℕ := (List.range i).countP addrs.getLsbD

/-- The mask picks one bit. -/
theorem hasAddr_eq_getLsbD (addrs : BitVec 32) {i : ℕ} (hi : i < 32) :
    hasAddr addrs i = addrs.getLsbD i := by
  have hmask : 1#32 <<< i = BitVec.twoPow 32 i := rfl
  have hne : BitVec.twoPow 32 i ≠ 0 := by
    intro h
    have hbit := congrArg (fun x => x.getLsbD i) h
    simp [hi] at hbit
  rw [hasAddr, hmask, BitVec.and_twoPow]
  cases addrs.getLsbD i with
  | false => simp
  | true => simpa using hne

/-- `addrsBefore` counts the bits that the code looks at. -/
theorem countP_hasAddr (addrs : BitVec 32) {i : ℕ} (hi : i ≤ 32) :
    (List.range i).countP (hasAddr addrs) = addrsBefore addrs i := by
  refine List.countP_congr fun k hk => ?_
  rw [hasAddr_eq_getLsbD addrs (Nat.lt_of_lt_of_le (List.mem_range.mp hk) hi)]

/-- A slot that is there counts. -/
theorem addrsBefore_lt {addrs : BitVec 32} {i n : ℕ} (hbit : addrs.getLsbD i = true)
    (hi : i < n) : addrsBefore addrs i < addrsBefore addrs n := by
  have hsucc : addrsBefore addrs (i + 1) = addrsBefore addrs i + 1 := by
    rw [addrsBefore, List.range_succ, List.countP_append, List.countP_cons_of_pos hbit]
    rfl
  have hle : addrsBefore addrs (i + 1) ≤ addrsBefore addrs n :=
    (List.range_sublist.mpr hi).countP_le
  omega

section Slots

variable {size : ℕ → ℕ} {addrs : BitVec 32} {n : ℕ}

/-- Slot by slot, what a walk over the first `n` slots finds: where the address of the slot
begins, if there is one, and there its bytes. -/
def Slots (addrs : BitVec 32) (n : ℕ) (sas : List (Record size)) (before after : List UInt8)
    (rti : List (Option ℕ)) : Prop :=
  rti.length = n ∧ ∀ i < n,
    (addrs.getLsbD i = false → rti[i]? = some none) ∧
    (addrs.getLsbD i = true → ∃ s rest, sas[addrsBefore addrs i]? = some s ∧
      rti[i]? = some (some (start before.length sas addrs.getLsbD (List.range i))) ∧
      (before ++ packed sas ++ after).drop
        (start before.length sas addrs.getLsbD (List.range i)) = s.bytes ++ rest)

/-- What a walk finds for one slot. -/
theorem slot_of_mapIdx (hn : n ≤ 32) {i : ℕ} (hi : i < n) (sas : List (Record size))
    (offset : ℕ) :
    ((List.range n).mapIdx fun k j => if hasAddr addrs j then
        some (start offset sas (hasAddr addrs) ((List.range n).take k)) else none)[i]? =
      some (if addrs.getLsbD i then
        some (start offset sas addrs.getLsbD (List.range i)) else none) := by
  have hstart : start offset sas (hasAddr addrs) (List.range i) =
      start offset sas addrs.getLsbD (List.range i) := by
    rw [start, countP_hasAddr addrs (by omega)]
    rfl
  rw [List.getElem?_mapIdx, List.getElem?_range hi, Option.map_some,
    hasAddr_eq_getLsbD addrs (Nat.lt_of_lt_of_le hi hn), List.take_range,
    Nat.min_eq_left (Nat.le_of_lt hi), hstart]

/-- **The slots of a packing**: each address that the mask names is found at its start, and
there is none in the other slots. -/
theorem slots_of_walk (hn : n ≤ 32) (sas : List.Vector (Record size) (addrsBefore addrs n))
    (before after : List UInt8) :
    ∃ rti, walk size (hasAddr addrs) (before ++ packed sas.toList ++ after) (List.range n)
        before.length = some rti ∧ Slots addrs n sas.toList before after rti := by
  have hcount : sas.toList.length = (List.range n).countP (hasAddr addrs) := by
    rw [countP_hasAddr addrs hn, sas.toList_length]
  refine ⟨_, walk_packed hcount before after, by simp, fun i hi => ?_⟩
  rw [slot_of_mapIdx hn hi]
  refine ⟨fun hbit => ?_, fun hbit => ?_⟩
  · rw [hbit, if_neg Bool.false_ne_true]
  · have hlt : addrsBefore addrs i < sas.toList.length := by
      rw [sas.toList_length]
      exact addrsBefore_lt hbit hi
    refine ⟨_, _, List.getElem?_eq_getElem hlt, ?_,
      drop_packed before after (List.getElem?_eq_getElem hlt)⟩
    rw [hbit, if_pos rfl]

end Slots

/-! ### macOS -/

namespace MacosDaemon

/-- `ROUNDUP`, with a `uint32_t` of four bytes. -/
def ROUNDUP (a : ℕ) : ℕ := if 0 < a then 1 + ((a - 1) ||| (4 - 1)) else 4

/-- `get_rti_info`, with pointers as offsets in a buffer; `none` if it reads behind the end
of it. -/
def getRtiInfo (addrs : BitVec 32) (buf : List UInt8) (sa : ℕ) : Option (List (Option ℕ)) :=
  walk ROUNDUP (hasAddr addrs) buf (List.range RTAX_MAX) sa

theorem ROUNDUP_eq : ROUNDUP = padded 4 := funext fun a => (padded_two_pow a 2).symm

/-- **`get_rti_info` undoes the packing**: for every set of address bits and every list of
socket addresses for them, of any length from 0 to 255, packed behind anything and in front
of anything. -/
theorem getRtiInfo_packed (addrs : BitVec 32)
    (sas : List.Vector (Record (padded 4)) (addrsBefore addrs RTAX_MAX))
    (before after : List UInt8) :
    ∃ rti, getRtiInfo addrs (before ++ packed sas.toList ++ after) before.length = some rti ∧
      Slots addrs RTAX_MAX sas.toList before after rti := by
  rw [getRtiInfo, ROUNDUP_eq]
  exact slots_of_walk (by decide) sas before after

/-- The message of a default route: the netmask is empty and takes four bytes. -/
example : getRtiInfo 0x7#32 ([16, 2, 0, 0, 0, 0, 0, 0] ++ List.replicate 8 0 ++
    [20, 18, 4, 0, 6, 0, 6, 0] ++ List.replicate 12 0 ++ [0, 0, 0, 0]) 0 =
    some [some 0, some 16, some 36, none, none, none, none, none] := by decide

end MacosDaemon

/-! ### FreeBSD -/

namespace FreebsdDaemon

/-- `SA_SIZE`, with a `long` of eight bytes. -/
def SA_SIZE (saLen : ℕ) : ℕ := if 0 < saLen then 1 + ((saLen - 1) ||| (8 - 1)) else 8

/-- The loop of `sentinel_in_fib` and `static_default_router` up to `RTA_NETMASK`, which
keeps the slots RTAX_DST and RTAX_GATEWAY. -/
def packedAddrs (rtmAddrs : BitVec 32) (buf : List UInt8) (q : ℕ) : Option (List (Option ℕ)) :=
  walk SA_SIZE (hasAddr rtmAddrs) buf (List.range 3) q

theorem SA_SIZE_eq : SA_SIZE = padded 8 := funext fun a => (padded_two_pow a 3).symm

/-- **The scans undo the packing** as far as the netmask, whatever addresses follow. -/
theorem packedAddrs_packed (rtmAddrs : BitVec 32)
    (sas : List.Vector (Record (padded 8)) (addrsBefore rtmAddrs 3)) (before after : List UInt8) :
    ∃ slots, packedAddrs rtmAddrs (before ++ packed sas.toList ++ after) before.length =
        some slots ∧
      Slots rtmAddrs 3 sas.toList before after slots := by
  rw [packedAddrs, SA_SIZE_eq]
  exact slots_of_walk (by decide) sas before after

end FreebsdDaemon

end V4WithV6Nh
