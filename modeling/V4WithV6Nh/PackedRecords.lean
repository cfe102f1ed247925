import Mathlib.Data.List.Basic
import Mathlib.Data.UInt

/-!
# Walking Packed Records

A packing lays records back to back. The first byte of a record is its length, and it
occupies as many bytes as a `size` makes of that. Which records there are is said beside
the packing, by a predicate on indices. `walk` goes through the indices and keeps an offset;
it stops when it would read behind the end.

## Main results

* `or_two_pow_sub_one`: the bit trick that rounds up, as a division.
* `walk_packed`: a walk over a packing finds the record of each index at its start, reads
  nothing behind the last one, and does not depend on what follows.
* `drop_packed`: what begins at such a start.
-/

namespace V4WithV6Nh

/-- A length rounded up to a multiple of `align`; an empty record occupies one. -/
def padded (align n : ℕ) : ℕ := if n = 0 then align else (n + align - 1) / align * align

/-- Setting the low bits rounds up to one less than a multiple of the power of two. -/
theorem or_two_pow_sub_one (n k : ℕ) : n ||| (2 ^ k - 1) = n / 2 ^ k * 2 ^ k + (2 ^ k - 1) := by
  have hpos : 0 < 2 ^ k := Nat.two_pow_pos k
  have hdiv : (n ||| (2 ^ k - 1)) / 2 ^ k = n / 2 ^ k := by
    rw [Nat.or_div_two_pow, Nat.div_eq_of_lt (Nat.sub_lt hpos Nat.one_pos), Nat.or_zero]
  have hmod : (n ||| (2 ^ k - 1)) % 2 ^ k = 2 ^ k - 1 := by
    rw [Nat.or_mod_two_pow]
    refine Nat.eq_of_testBit_eq fun i => ?_
    by_cases hi : i < k <;> simp [hi, Nat.testBit_two_pow_sub_one]
  rw [← Nat.div_add_mod (n ||| (2 ^ k - 1)) (2 ^ k), hdiv, hmod, Nat.mul_comm]

/-- The bit trick rounds up. -/
theorem padded_two_pow (n k : ℕ) :
    padded (2 ^ k) n = if 0 < n then 1 + ((n - 1) ||| (2 ^ k - 1)) else 2 ^ k := by
  have hpos : 0 < 2 ^ k := Nat.two_pow_pos k
  rw [padded]
  split
  · rename_i hzero
    rw [if_neg (by omega)]
  · rename_i hne
    have hshift : n + 2 ^ k - 1 = n - 1 + 2 ^ k := by omega
    rw [if_pos (Nat.pos_of_ne_zero hne), or_two_pow_sub_one, hshift, Nat.add_div_right _ hpos,
      Nat.succ_mul]
    omega

variable {size : ℕ → ℕ}

/-- A record: its length, and what it occupies behind that byte. -/
structure Record (size : ℕ → ℕ) where
  len : UInt8
  data : List UInt8
  occupied : data.length + 1 = size len.toNat

/-- The bytes of a record. -/
def Record.bytes (r : Record size) : List UInt8 := r.len :: r.data

theorem Record.length_bytes (r : Record size) : r.bytes.length = size r.len.toNat := r.occupied

/-- Records back to back. -/
def packed (records : List (Record size)) : List UInt8 := records.flatMap Record.bytes

theorem packed_cons (r : Record size) (records : List (Record size)) :
    packed (r :: records) = r.bytes ++ packed records :=
  List.flatMap_cons

theorem packed_append (records records' : List (Record size)) :
    packed (records ++ records') = packed records ++ packed records' :=
  List.flatMap_append

/-- The offset of the record of each index, if there is one; `none` if a length is read
behind the end of the buffer. -/
def walk (size : ℕ → ℕ) (present : ℕ → Bool) (buf : List UInt8) :
    List ℕ → ℕ → Option (List (Option ℕ))
  | [], _ => some []
  | i :: indices, offset =>
      if present i then
        match buf[offset]? with
        | none => none
        | some len =>
            (walk size present buf indices (offset + size len.toNat)).map (some offset :: ·)
      else (walk size present buf indices offset).map (none :: ·)

/-- Where the record of an index begins, behind those of the indices before it. -/
def start (offset : ℕ) (records : List (Record size)) (present : ℕ → Bool)
    (before : List ℕ) : ℕ :=
  offset + (packed (records.take (before.countP present))).length

section Walk

variable {present : ℕ → Bool} {indices : List ℕ} {records : List (Record size)}

/-- The first record is at the first present index. -/
theorem start_cons_of_pos {i : ℕ} (hi : present i = true) (offset : ℕ) (r : Record size)
    (before : List ℕ) : start offset (r :: records) present (i :: before) =
      start (offset + size r.len.toNat) records present before := by
  rw [start, List.countP_cons_of_pos hi, List.take_succ_cons, packed_cons, List.length_append,
    r.length_bytes, ← Nat.add_assoc, start]

/-- An absent index has no record. -/
theorem start_cons_of_neg {i : ℕ} (hi : present i = false) (offset : ℕ) (before : List ℕ) :
    start offset records present (i :: before) = start offset records present before := by
  rw [start, List.countP_cons_of_neg (by rw [hi]; exact Bool.false_ne_true), start]

/-- **A walk over a packing** finds the start of the record of each present index. -/
theorem walk_packed (h : records.length = indices.countP present) (before after : List UInt8) :
    walk size present (before ++ packed records ++ after) indices before.length =
      some (indices.mapIdx fun k i =>
        if present i then some (start before.length records present (indices.take k))
        else none) := by
  induction indices generalizing records before with
  | nil => rfl
  | cons i indices ih =>
      rw [walk, List.mapIdx_cons, List.take_zero]
      by_cases hi : present i = true
      · rw [List.countP_cons_of_pos hi] at h
        obtain ⟨r, records, rfl⟩ := List.exists_cons_of_length_eq_add_one h
        have hread : (before ++ packed (r :: records) ++ after)[before.length]? = some r.len := by
          rw [packed_cons, List.append_assoc, List.getElem?_append_right (Nat.le_refl _),
            Nat.sub_self]
          rfl
        have hshift : before ++ packed (r :: records) ++ after =
            (before ++ r.bytes) ++ packed records ++ after := by
          rw [packed_cons, List.append_assoc, List.append_assoc, List.append_assoc,
            List.append_assoc]
        have hrest := ih (Nat.succ.inj h) (before ++ r.bytes)
        rw [List.length_append, r.length_bytes] at hrest
        simp only [hi, if_true, hread]
        rw [hshift, hrest]
        simp only [Option.map_some, List.take_succ_cons, start_cons_of_pos hi]
        rfl
      · rw [List.countP_cons_of_neg hi] at h
        rw [if_neg hi, if_neg hi, ih h, Option.map_some]
        simp only [List.take_succ_cons, start_cons_of_neg ((Bool.not_eq_true _).mp hi)]

/-- **What begins at the start** of the record with number `m`: its bytes. -/
theorem drop_packed (before after : List UInt8) {m : ℕ} {r : Record size}
    (h : records[m]? = some r) :
    (before ++ packed records ++ after).drop
        (before.length + (packed (records.take m)).length) =
      r.bytes ++ (packed (records.drop (m + 1)) ++ after) := by
  obtain ⟨hm, rfl⟩ := List.getElem?_eq_some_iff.mp h
  have hsplit : packed records = packed (records.take m) ++
      (records[m].bytes ++ packed (records.drop (m + 1))) := by
    rw [← packed_cons, ← List.drop_eq_getElem_cons hm, ← packed_append, List.take_append_drop]
  rw [hsplit, List.append_assoc, List.drop_length_add_append, List.append_assoc,
    List.drop_left, List.append_assoc]

end Walk

end V4WithV6Nh
