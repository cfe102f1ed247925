import Mathlib.Data.List.Basic
import Mathlib.Data.UInt

/-!
# Scanning a Buffer of Frames

A buffer has frames back to back. Each frame says in its header how many bytes it takes, and a
scan goes from frame to frame until one is what it looks for, or until it has come to the end.
`scanFrames` is that loop for an arbitrary header and an arbitrary test, over bytes: a read
behind the end of the buffer is not an answer, and neither is a frame without bytes, on which
the loop would turn for ever.

## Main results

* `scanFrames_flatMap`: if the length and the test of every frame are read right whatever comes
  behind it, the scan of the buffer is the search of the list of frames.
* `bytesAt_of_drop`: a field that begins in a part of the buffer is read there.
* `fromLE_toLE`, `fromBE_toBE`: a number that is written is read back.
-/

namespace V4WithV6Nh

/-! ### Fields -/

/-- The `n` bytes at an offset, if the buffer has them. -/
def bytesAt (buf : List UInt8) (i n : ℕ) : Option (List UInt8) :=
  if i + n ≤ buf.length then some ((buf.drop i).take n) else none

/-- A number, with the lowest byte first. -/
def fromLE (bytes : List UInt8) : ℕ := bytes.foldr (fun b n => b.toNat + 256 * n) 0

/-- A number, with the highest byte first. -/
def fromBE (bytes : List UInt8) : ℕ := bytes.foldl (fun n b => 256 * n + b.toNat) 0

/-- The `k` lowest bytes of a number, the lowest first. -/
def toLE : ℕ → ℕ → List UInt8
  | 0, _ => []
  | k + 1, n => UInt8.ofNat n :: toLE k (n / 256)

/-- The `k` lowest bytes of a number, the lowest last. -/
def toBE : ℕ → ℕ → List UInt8
  | 0, _ => []
  | k + 1, n => toBE k (n / 256) ++ [UInt8.ofNat n]

section Fields

variable {a b buf s rest : List UInt8} {i n p : ℕ}

/-- A field of a part is read there, whatever comes behind it. -/
theorem bytesAt_append (h : i + n ≤ a.length) (b : List UInt8) :
    bytesAt (a ++ b) i n = bytesAt a i n := by
  have hle : i + n ≤ (a ++ b).length := h.trans (by rw [List.length_append]; omega)
  rw [bytesAt, bytesAt, if_pos h, if_pos hle, List.drop_append_of_le_length (by omega),
    List.take_append_of_le_length (by rw [List.length_drop]; omega)]

/-- A field behind a part is one of the rest. -/
theorem bytesAt_append_right (a b : List UInt8) (i n : ℕ) :
    bytesAt (a ++ b) (a.length + i) n = bytesAt b i n := by
  rw [bytesAt, bytesAt, List.length_append, List.drop_length_add_append, Nat.add_assoc]
  simp only [Nat.add_le_add_iff_left]

/-- A field of what begins at an offset. -/
theorem bytesAt_of_drop (hdrop : buf.drop p = s ++ rest) (hs : s ≠ []) (h : i + n ≤ s.length) :
    bytesAt buf (p + i) n = bytesAt s i n := by
  have hp : p ≤ buf.length := by
    by_contra hlt
    rw [List.drop_of_length_le (by omega)] at hdrop
    exact hs (List.append_eq_nil_iff.mp hdrop.symm).1
  have hbuf : buf = buf.take p ++ (s ++ rest) := by rw [← hdrop, List.take_append_drop]
  have hlength : (buf.take p).length = p := by rw [List.length_take, Nat.min_eq_left hp]
  have hread := bytesAt_append_right (buf.take p) (s ++ rest) i n
  rw [hlength, ← hbuf] at hread
  exact hread.trans (bytesAt_append h rest)

/-- A field inside the buffer is read. -/
theorem bytesAt_eq_some (h : i + n ≤ buf.length) :
    bytesAt buf i n = some ((buf.drop i).take n) := if_pos h

theorem length_toLE (k n : ℕ) : (toLE k n).length = k := by
  induction k generalizing n with
  | zero => rfl
  | succ k ih => rw [toLE, List.length_cons, ih]

theorem length_toBE (k n : ℕ) : (toBE k n).length = k := by
  induction k generalizing n with
  | zero => rfl
  | succ k ih => rw [toBE, List.length_append, ih, List.length_singleton]

theorem mod_mul_pow (n k : ℕ) : 256 * (n / 256 % 256 ^ k) + n % 256 = n % 256 ^ (k + 1) := by
  rw [Nat.pow_succ', Nat.mod_mul, Nat.add_comm]

/-- A number that is written is read back. -/
theorem fromLE_toLE (k n : ℕ) : fromLE (toLE k n) = n % 256 ^ k := by
  induction k generalizing n with
  | zero => rw [Nat.pow_zero, Nat.mod_one]; rfl
  | succ k ih =>
      have hih := ih (n / 256)
      rw [fromLE] at hih
      rw [toLE, fromLE, List.foldr_cons, hih, ← mod_mul_pow, UInt8.toNat_ofNat', Nat.add_comm]

theorem fromBE_toBE (k n : ℕ) : fromBE (toBE k n) = n % 256 ^ k := by
  induction k generalizing n with
  | zero => rw [Nat.pow_zero, Nat.mod_one]; rfl
  | succ k ih =>
      have hih := ih (n / 256)
      rw [fromBE] at hih
      rw [toBE, fromBE, List.foldl_append, hih, ← mod_mul_pow, List.foldl_cons, List.foldl_nil,
        UInt8.toNat_ofNat']

end Fields

/-! ### The loop -/

/-- How a scan ends. -/
inductive Scanned (β : Type*)
  | found (b : β)
  /-- At the end of the buffer. -/
  | exhausted
  /-- With a read behind the end. -/
  | behind
  /-- Not at all. -/
  | endless
deriving DecidableEq

/-- The answer of a search. -/
def Scanned.ofOption {β : Type*} : Option β → Scanned β
  | some b => .found b
  | none => .exhausted

variable {β γ : Type*}

/-- The scan: `len` is what the header of the frame in front says, and `visit` whether the frame
is what the scan looks for; both are `none` if they read behind the end. -/
def scanFrames (len : List UInt8 → Option ℕ) (visit : List UInt8 → Option (Option β)) :
    ℕ → List UInt8 → Scanned β
  | _, [] => .exhausted
  | 0, _ :: _ => .endless
  | fuel + 1, b :: rest =>
      match len (b :: rest), visit (b :: rest) with
      | some _, some (some b) => .found b
      | some n, some none => scanFrames len visit fuel ((b :: rest).drop n)
      | _, _ => .behind

/-- **The scan of a buffer of frames** is the search of the list of frames. -/
theorem scanFrames_flatMap {len : List UInt8 → Option ℕ}
    {visit : List UInt8 → Option (Option β)} {bytes : γ → List UInt8} {g : γ → Option β}
    {xs : List γ} (hne : ∀ x ∈ xs, bytes x ≠ [])
    (hlen : ∀ x ∈ xs, ∀ after, len (bytes x ++ after) = some (bytes x).length)
    (hvisit : ∀ x ∈ xs, ∀ after, visit (bytes x ++ after) = some (g x)) {fuel : ℕ}
    (hfuel : xs.length ≤ fuel) :
    scanFrames len visit fuel (xs.flatMap bytes) = .ofOption (xs.findSome? g) := by
  induction xs generalizing fuel with
  | nil => cases fuel <;> rfl
  | cons x xs ih =>
      obtain ⟨fuel, rfl⟩ : ∃ m, fuel = m + 1 :=
        Nat.exists_eq_add_of_le' (Nat.succ_le_of_lt (Nat.lt_of_lt_of_le (Nat.succ_pos _) hfuel))
      have hx := hlen x List.mem_cons_self (xs.flatMap bytes)
      have hg := hvisit x List.mem_cons_self (xs.flatMap bytes)
      have htail := ih (fun y hy => hne y (List.mem_cons_of_mem x hy))
        (fun y hy => hlen y (List.mem_cons_of_mem x hy))
        (fun y hy => hvisit y (List.mem_cons_of_mem x hy)) (Nat.le_of_succ_le_succ hfuel)
      rw [List.flatMap_cons, List.findSome?_cons]
      cases hbytes : bytes x with
      | nil => exact absurd hbytes (hne x List.mem_cons_self)
      | cons b rest =>
          rw [hbytes] at hx hg
          rw [List.cons_append] at hx hg ⊢
          rw [scanFrames, hx, hg]
          cases g x with
          | some y => rfl
          | none =>
              simp only
              rw [← List.cons_append, List.drop_left, htail]

/-- A frame takes a byte at least, so the length of the buffer is fuel enough. -/
theorem length_le_flatMap {bytes : γ → List UInt8} {xs : List γ}
    (hne : ∀ x ∈ xs, bytes x ≠ []) : xs.length ≤ (xs.flatMap bytes).length := by
  induction xs with
  | nil => exact Nat.zero_le _
  | cons x xs ih =>
      have hpos := List.length_pos_iff.mpr (hne x List.mem_cons_self)
      have htail := ih fun y hy => hne y (List.mem_cons_of_mem x hy)
      rw [List.flatMap_cons, List.length_append, List.length_cons]
      omega

end V4WithV6Nh
