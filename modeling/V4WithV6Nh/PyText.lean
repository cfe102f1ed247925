import Mathlib.Data.Int.Notation
import Mathlib.Data.List.DropRight
import V4WithV6Nh.Tokens

/-!
# Text as the Python Daemons Handle It

A Python `str` is a list of characters. This module has the operations on text that
`v4gwrd.py` computes with: `split()` on whitespace, `splitlines()`, `split(":")`, `lower()`,
`int(x, 16)`, and `decode(errors="replace")` on bytes.

`lower()` and the digits outside ASCII that `int` accepts are read from Python's Unicode
tables. These are a parameter, `UnicodeTables`; `LawfulLower` is what the restart of a
daemon relies on, and no other theorem assumes anything about them. The instance
`asciiTables` is right for text in ASCII, which is all the daemons ever exchange, and
evaluates.
-/

namespace V4WithV6Nh

/-- Text: a list of characters. -/
abbrev Text := List Char

/-- Python's Unicode tables, as far as `str.lower` and `int` read them. -/
class UnicodeTables where
  /-- `str.lower()`. -/
  lower : Text → Text
  /-- The value of a decimal digit outside ASCII. -/
  decimal : Char → Option ℕ

/-- The tables restricted to ASCII. -/
instance asciiTables : UnicodeTables where
  lower := List.map Char.toLower
  decimal _ := none

/-- `str.isspace()` for one character. -/
def isSpace (c : Char) : Bool :=
  (0x09 ≤ c.toNat && c.toNat ≤ 0x0d) || (0x1c ≤ c.toNat && c.toNat ≤ 0x20) ||
    c.toNat == 0x85 || c.toNat == 0xa0 || c.toNat == 0x1680 ||
    (0x2000 ≤ c.toNat && c.toNat ≤ 0x200a) || c.toNat == 0x2028 || c.toNat == 0x2029 ||
    c.toNat == 0x202f || c.toNat == 0x205f || c.toNat == 0x3000

/-- `line.split()`. -/
def split (line : Text) : List Text := tokens isSpace line

/-- A non-empty text without whitespace: what `split` returns. -/
abbrev IsToken (t : Text) : Prop := IsWord isSpace t

/-- `str.lower()` leaves what is in lower case, and takes words to words. -/
class LawfulLower [UnicodeTables] : Prop where
  lower_lower : ∀ t, UnicodeTables.lower (UnicodeTables.lower t) = UnicodeTables.lower t
  isToken_lower : ∀ t, IsToken t → IsToken (UnicodeTables.lower t)

/-- The letters from `A` to `Z` move by 32. -/
theorem toNat_toLower (c : Char) :
    c.toLower.toNat = if 65 ≤ c.toNat ∧ c.toNat ≤ 90 then c.toNat + 32 else c.toNat := by
  have hiff : (c.val ≥ 'A'.val ∧ c.val ≤ 'Z'.val) ↔ 65 ≤ c.toNat ∧ c.toNat ≤ 90 := by
    simp [UInt32.le_iff_toNat_le, ← Char.toNat_val]
  delta Char.toLower
  split
  · rename_i h
    obtain ⟨hlo, hhi⟩ := hiff.mp h
    have h32 : ('a'.val - 'A'.val).toNat = 32 := rfl
    rw [if_pos (hiff.mp h)]
    simp only [← Char.toNat_val] at hlo hhi ⊢
    rw [UInt32.toNat_add]
    omega
  · rename_i h
    rw [if_neg (mt hiff.mpr h)]

instance : LawfulLower where
  lower_lower t := by
    refine List.map_map.trans (List.map_congr_left fun c _ => Char.toNat_inj.mp ?_)
    rw [Function.comp_apply, toNat_toLower c.toLower, toNat_toLower c]
    split_ifs <;> omega
  isToken_lower t ht := by
    refine ⟨by simpa [UnicodeTables.lower] using ht.1, fun x hx => ?_⟩
    obtain ⟨c, hc, rfl⟩ := List.mem_map.mp hx
    have hspace := ht.2 c hc
    have hnat := toNat_toLower c
    simp [isSpace] at hspace ⊢
    split_ifs at hnat <;> omega

/-! ### Lines -/

/-- A character that ends a line for `splitlines`. -/
def isLineBreak (c : Char) : Bool :=
  (0x0a ≤ c.toNat && c.toNat ≤ 0x0d) || (0x1c ≤ c.toNat && c.toNat ≤ 0x1e) ||
    c.toNat == 0x85 || c.toNat == 0x2028 || c.toNat == 0x2029

/-- The lines of a text whose first line begins with `line`. -/
def splitlinesFrom (line : Text) : Text → List Text
  | [] => if line.isEmpty then [] else [line]
  | '\r' :: '\n' :: cs => line :: splitlinesFrom [] cs
  | c :: cs =>
      if isLineBreak c then line :: splitlinesFrom [] cs else splitlinesFrom (line ++ [c]) cs

/-- `text.splitlines()`. -/
def splitlines (text : Text) : List Text := splitlinesFrom [] text

/-- A character that ends a line is whitespace. -/
theorem isSpace_of_isLineBreak {c : Char} (h : isLineBreak c = true) : isSpace c = true := by
  simp only [isLineBreak, Bool.or_eq_true, Bool.and_eq_true, decide_eq_true_eq,
    beq_iff_eq] at h
  simp only [isSpace, Bool.or_eq_true, Bool.and_eq_true, decide_eq_true_eq, beq_iff_eq]
  omega

/-- A line without line breaks is the first one. -/
theorem splitlinesFrom_line {text : Text} (line rest : Text)
    (htext : ∀ c ∈ text, isLineBreak c = false) :
    splitlinesFrom line (text ++ '\n' :: rest) = (line ++ text) :: splitlines rest := by
  induction text generalizing line with
  | nil =>
      rw [List.append_nil]
      rfl
  | cons c cs ih =>
      have hc := htext c List.mem_cons_self
      have hne : c ≠ '\r' := by
        rintro rfl
        cases hc
      rw [List.cons_append, splitlinesFrom]
      · rw [hc, if_neg Bool.false_ne_true, ih _ fun x hx => htext x (List.mem_cons_of_mem _ hx)]
        simp
      · intro cs' hr
        exact absurd hr hne

section Hexadecimal

/-- The value of a character as a base-16 digit. -/
def hexDigit (c : Char) : Option ℕ :=
  if '0' ≤ c ∧ c ≤ '9' then some (c.toNat - '0'.toNat)
  else if 'a' ≤ c ∧ c ≤ 'f' then some (c.toNat - 'a'.toNat + 10)
  else if 'A' ≤ c ∧ c ≤ 'F' then some (c.toNat - 'A'.toNat + 10)
  else none

/-- The digits of an integer literal: `n` is the value read so far and `afterDigit` says
whether the last character was a digit, which is where a single underscore may stand and
where the literal may end. -/
def hexDigits : Text → ℕ → Bool → Option ℕ
  | [], n, afterDigit => if afterDigit then some n else none
  | '_' :: cs, n, true => hexDigits cs n false
  | c :: cs, n, _ => do
      let d ← hexDigit c
      hexDigits cs (16 * n + d) true

/-- ASCII whitespace, which `int` strips at both ends. -/
def isAsciiSpace (c : Char) : Bool :=
  (0x09 ≤ c.toNat && c.toNat ≤ 0x0d) || c.toNat == 0x20

/-- The optional `0x` in front of a base-16 literal, with the one underscore allowed
after it. -/
def dropHexMark : Text → Text
  | '0' :: 'x' :: '_' :: cs | '0' :: 'X' :: '_' :: cs => cs
  | '0' :: 'x' :: cs | '0' :: 'X' :: cs => cs
  | cs => cs

/-- What `int` takes a character for: outside ASCII, whitespace is a space and a decimal
digit is that of ASCII; `?` is in no literal. -/
def asciiOf [UnicodeTables] (c : Char) : Char :=
  if c.toNat < 0x80 then c
  else if isSpace c then ' '
  else ((UnicodeTables.decimal c).map fun d => Char.ofNat ('0'.toNat + d)).getD '?'

/-- `int(x, 16)`; `none` is `ValueError`. -/
def int16 [UnicodeTables] (x : Text) : Option ℤ :=
  match ((x.map asciiOf).dropWhile isAsciiSpace).rdropWhile isAsciiSpace with
  | '-' :: cs => (hexDigits (dropHexMark cs) 0 false).map fun n => -(n : ℤ)
  | '+' :: cs => (hexDigits (dropHexMark cs) 0 false).map fun n => (n : ℤ)
  | cs => (hexDigits (dropHexMark cs) 0 false).map fun n => (n : ℤ)

/-- Text in ASCII is taken for what it is. -/
theorem map_asciiOf [UnicodeTables] {t : Text} (h : ∀ c ∈ t, c.toNat < 0x80) :
    t.map asciiOf = t := by
  have hid : t.map asciiOf = t.map id :=
    List.map_congr_left fun c hc => if_pos (h c hc)
  rw [hid, List.map_id]

end Hexadecimal

/-! ### Bytes -/

/-- An unfinished UTF-8 sequence: how many bytes are owed, the least and the greatest that
the next one may be, and the value read so far. -/
structure Utf8Pending where
  owed : ℕ
  least : ℕ
  greatest : ℕ
  value : ℕ

/-- What the first byte of a sequence begins: a character, a longer sequence, or
nothing. -/
def utf8Lead (b : ℕ) : Option (Char ⊕ Utf8Pending) :=
  if b < 0x80 then some (.inl (Char.ofNat b))
  else if b < 0xc2 then none
  else if b < 0xe0 then some (.inr ⟨1, 0x80, 0xbf, b - 0xc0⟩)
  else if b < 0xf0 then
    some (.inr ⟨2, if b = 0xe0 then 0xa0 else 0x80, if b = 0xed then 0x9f else 0xbf, b - 0xe0⟩)
  else if b < 0xf5 then
    some (.inr ⟨3, if b = 0xf0 then 0x90 else 0x80, if b = 0xf4 then 0x8f else 0xbf, b - 0xf0⟩)
  else none

/-- `decode(errors="replace")` after an unfinished sequence: U+FFFD for each sequence that
breaks off, where the byte that breaks it begins the next one, and for each byte that
begins none. -/
def decodeFrom : Option Utf8Pending → List UInt8 → Text
  | none, [] => []
  | some _, [] => ['\uFFFD']
  | none, b :: bs =>
      match utf8Lead b.toNat with
      | some (.inl c) => c :: decodeFrom none bs
      | some (.inr p) => decodeFrom (some p) bs
      | none => '\uFFFD' :: decodeFrom none bs
  | some p, b :: bs =>
      if p.least ≤ b.toNat ∧ b.toNat ≤ p.greatest then
        if p.owed = 1 then Char.ofNat (64 * p.value + b.toNat % 64) :: decodeFrom none bs
        else decodeFrom (some ⟨p.owed - 1, 0x80, 0xbf, 64 * p.value + b.toNat % 64⟩) bs
      else
        '\uFFFD' ::
          match utf8Lead b.toNat with
          | some (.inl c) => c :: decodeFrom none bs
          | some (.inr p) => decodeFrom (some p) bs
          | none => '\uFFFD' :: decodeFrom none bs

/-- `bytes.decode(errors="replace")`. -/
def decode (bytes : List UInt8) : Text := decodeFrom none bytes

/-- A byte of a longer sequence is none of ASCII. -/
theorem least_of_utf8Lead {b : ℕ} {p : Utf8Pending} (h : utf8Lead b = some (.inr p)) :
    0x80 ≤ p.least := by
  rw [utf8Lead] at h
  split_ifs at h <;> cases h <;> simp only <;> try split_ifs
  all_goals decide

/-- A byte of ASCII ends what comes before it and stands for itself. -/
theorem decodeFrom_append_cons {a : List UInt8} {b : UInt8} (hb : b.toNat < 0x80)
    (bs : List UInt8) (p : Option Utf8Pending) (hp : ∀ q, p = some q → 0x80 ≤ q.least) :
    decodeFrom p (a ++ b :: bs) = decodeFrom p a ++ Char.ofNat b.toNat :: decodeFrom none bs := by
  have hchar : utf8Lead b.toNat = some (.inl (Char.ofNat b.toNat)) := if_pos hb
  induction a generalizing p with
  | nil =>
      cases p with
      | none => simp only [List.nil_append, decodeFrom, hchar]
      | some q =>
          have hleast := hp q rfl
          have hbreaks : ¬ (q.least ≤ b.toNat ∧ b.toNat ≤ q.greatest) := by omega
          simp only [List.nil_append, decodeFrom, hchar, if_neg hbreaks, List.cons_append]
  | cons c a ih =>
      have hnone := ih none nofun
      have hsome : ∀ q : Utf8Pending, 0x80 ≤ q.least → decodeFrom (some q) (a ++ b :: bs) =
          decodeFrom (some q) a ++ Char.ofNat b.toNat :: decodeFrom none bs := fun q hq =>
        ih (some q) fun q' hq' => Option.some.inj hq' ▸ hq
      have hlead : ∀ q, utf8Lead c.toNat = some (.inr q) → decodeFrom (some q) (a ++ b :: bs) =
          decodeFrom (some q) a ++ Char.ofNat b.toNat :: decodeFrom none bs := fun q hq =>
        hsome q (least_of_utf8Lead hq)
      cases p with
      | none =>
          rw [List.cons_append, decodeFrom, decodeFrom]
          split
          · rw [hnone, List.cons_append]
          · rename_i q hq
            exact hlead q hq
          · rw [hnone, List.cons_append]
      | some q =>
          rw [List.cons_append, decodeFrom, decodeFrom]
          split
          · split
            · rw [hnone, List.cons_append]
            · exact hsome _ le_rfl
          · split
            · rw [hnone, List.cons_append, List.cons_append]
            · rename_i q' hq'
              rw [hlead q' hq', List.cons_append]
            · rw [hnone, List.cons_append, List.cons_append]

/-- **Decoding stops at ASCII**: the parts around such a byte are decoded by themselves. -/
theorem decode_append_cons {b : UInt8} (hb : b.toNat < 0x80) (a bs : List UInt8) :
    decode (a ++ b :: bs) = decode a ++ Char.ofNat b.toNat :: decode bs :=
  decodeFrom_append_cons hb bs none nofun

example : decode [0x61, 0xc3, 0xa9, 0xe2, 0x82, 0xac, 0xf0, 0x9f, 0x98, 0x80] =
    "aé€😀".toList := by decide

example : decode [0xe2, 0x82, 0x61, 0xed, 0xa0, 0xff, 0xf0, 0x9f] =
    "\uFFFDa\uFFFD\uFFFD\uFFFD\uFFFD".toList := by decide

end V4WithV6Nh
