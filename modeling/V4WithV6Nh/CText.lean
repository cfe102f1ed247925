import Mathlib.Data.Nat.Notation
import Mathlib.Data.Vector.Basic
import V4WithV6Nh.PyText

/-!
# Text as the C Daemons Handle It

The C daemons read lines with `fgets`, read numbers with the `strtol` family and `sscanf`,
and print and read back MAC addresses. A C string is the list of its characters without
the terminating zero.

`number` is what `strtol`, `%x` and `%hhx` have in common: whitespace, a sign, a `0x` in
base 16 and the longest run of digits, with a value that saturates at the limit of the
type. So a reader of MAC addresses accepts more than a printer prints. What was printed is
read back: `scanBytes_bytesText`. Of a print that is cut short, only one without its last digit
is read, as other bytes: `scanBytes_take_eq_none`, `scanBytes_take_last`.
-/

namespace V4WithV6Nh

/-- The link-layer address of an Ethernet interface: six bytes. -/
abbrev Mac := List.Vector UInt8 6

/-! ### Lines -/

/-- A text up to its first newline, which is kept. -/
def firstLine : Text → Text
  | [] => []
  | c :: cs => if c = '\n' then [c] else c :: firstLine cs

/-- `fgets` at the start of a file, into a buffer of `size` bytes. -/
def fgets (size : ℕ) (content : Text) : Option Text :=
  if content = [] then none else some (firstLine (content.take (size - 1)))

/-! ### Numbers -/

/-- The value of a character as a digit of a base. -/
def digitValue (base : ℕ) (c : Char) : Option ℕ :=
  let n :=
    if '0' ≤ c ∧ c ≤ '9' then c.toNat - '0'.toNat
    else if 'a' ≤ c ∧ c ≤ 'z' then c.toNat - 'a'.toNat + 10
    else if 'A' ≤ c ∧ c ≤ 'Z' then c.toNat - 'A'.toNat + 10
    else base
  if n < base then some n else none

/-- Read on from the value `n`, as far as there are digits. -/
def scanDigits (base : ℕ) : Text → ℕ → ℕ × Text
  | [], n => (n, [])
  | c :: cs, n =>
      match digitValue base c with
      | some d => scanDigits base cs (base * n + d)
      | none => (n, c :: cs)

/-- The sign in front of a number. -/
def scanSign : Text → Bool × Text
  | '-' :: cs => (true, cs)
  | '+' :: cs => (false, cs)
  | cs => (false, cs)

/-- The `0x` in front of a number in base 16; it has to have a digit behind it. -/
def dropMark : Text → Text
  | '0' :: x :: c :: cs =>
      if (x = 'x' ∨ x = 'X') ∧ (digitValue 16 c).isSome then c :: cs else '0' :: x :: c :: cs
  | cs => cs

/-- A number of an unsigned type with `limit` values, and what is behind it. A value out
of range is the largest one, and a negative one is taken modulo `limit`. -/
def number (limit base : ℕ) (t : Text) : Option (ℕ × Text) :=
  let signed := scanSign (t.dropWhile isAsciiSpace)
  match if base = 16 then dropMark signed.2 else signed.2 with
  | [] => none
  | c :: cs =>
      match digitValue base c with
      | none => none
      | some d =>
          let r := scanDigits base cs d
          let n :=
            if limit ≤ r.1 then limit - 1
            else if signed.1 then (limit - r.1) % limit
            else r.1
          some (n, r.2)

/-! ### MAC addresses -/

/-- `sscanf` with `n` conversions `%hhx` that have `sep` between them. -/
def scanBytes (sep : Char) : (n : ℕ) → Text → Option (List.Vector UInt8 n)
  | 0, _ => some .nil
  | n + 1, t =>
      match number (2 ^ 64) 16 t with
      | none => none
      | some (v, rest) =>
          if n = 0 then (scanBytes sep n []).map (.cons (UInt8.ofNat v))
          else
            match rest with
            | [] => none
            | c :: cs =>
                if c = sep then (scanBytes sep n cs).map (.cons (UInt8.ofNat v)) else none

/-- The digits of `%x`. -/
def lowerDigit (n : ℕ) : Char :=
  if n < 10 then Char.ofNat ('0'.toNat + n) else Char.ofNat ('a'.toNat + (n - 10))

/-- The digits of `%X`. -/
def upperDigit (n : ℕ) : Char :=
  if n < 10 then Char.ofNat ('0'.toNat + n) else Char.ofNat ('A'.toNat + (n - 10))

/-- A byte as two digits. -/
def byteText (digit : ℕ → Char) (b : UInt8) : Text :=
  [digit (b.toNat / 16), digit (b.toNat % 16)]

/-- Bytes as two digits each, with `sep` between them. -/
def bytesText (digit : ℕ → Char) (sep : Char) (bytes : List UInt8) : Text :=
  [sep].intercalate (bytes.map (byteText digit))

/-! ### Reading back what was printed -/

/-- The digits of `%x` are digits. -/
theorem digitValue_lowerDigit : ∀ n < 16, digitValue 16 (lowerDigit n) = some n := by decide

/-- The digits of `%X` are digits. -/
theorem digitValue_upperDigit : ∀ n < 16, digitValue 16 (upperDigit n) = some n := by decide

theorem digitValue_lt {base d : ℕ} {c : Char} (h : digitValue base c = some d) : d < base := by
  simp only [digitValue, Option.ite_none_right_eq_some, Option.some.injEq] at h
  exact h.2 ▸ h.1

/-- Digits are in ASCII. -/
theorem toNat_lt_of_digitValue {base d : ℕ} {c : Char} (h : digitValue base c = some d) :
    c.toNat < 0x80 := by
  simp only [digitValue, Option.ite_none_right_eq_some, Option.some.injEq] at h
  obtain ⟨hlt, -⟩ := h
  split_ifs at hlt with hdigit hlower hupper
  · have : c.toNat ≤ '9'.toNat := hdigit.2
    exact Nat.lt_of_le_of_lt this (by decide)
  · have : c.toNat ≤ 'z'.toNat := hlower.2
    exact Nat.lt_of_le_of_lt this (by decide)
  · have : c.toNat ≤ 'Z'.toNat := hupper.2
    exact Nat.lt_of_le_of_lt this (by decide)
  · exact absurd hlt (Nat.lt_irrefl _)

/-- The text does not go on with a digit. -/
def Stops (t : Text) : Prop := ∀ c cs, t = c :: cs → digitValue 16 c = none

theorem stops_nil : Stops [] := fun _ _ h => (List.cons_ne_nil _ _ h.symm).elim

theorem stops_cons {c : Char} {cs : Text} (h : digitValue 16 c = none) : Stops (c :: cs) := by
  rintro c' cs' ⟨⟩
  exact h

/-- A digit is no whitespace, no sign and no mark. -/
theorem digit_facts {c : Char} {d : ℕ} (h : digitValue 16 c = some d) :
    isAsciiSpace c = false ∧ c ≠ '-' ∧ c ≠ '+' ∧ c ≠ 'x' ∧ c ≠ 'X' := by
  have hspace : isAsciiSpace c = true → digitValue 16 c = none := by
    intro hc
    have hn : c.toNat ≤ 0x20 := by
      simp only [isAsciiSpace, Bool.or_eq_true, Bool.and_eq_true, decide_eq_true_eq,
        beq_iff_eq] at hc
      omega
    have hlow : ∀ a : Char, 0x20 < a.toNat → ¬ a ≤ c := by
      intro a ha hle
      have : a.toNat ≤ c.toNat := hle
      omega
    simp [digitValue, hlow '0' (by decide), hlow 'a' (by decide), hlow 'A' (by decide)]
  refine ⟨?_, ?_, ?_, ?_, ?_⟩
  · cases hc : isAsciiSpace c with
    | false => rfl
    | true =>
        rw [hspace hc] at h
        cases h
  all_goals
    rintro rfl
    revert h
    simp [digitValue]

/-- A byte that was printed is read back, as far as a character that is no digit. -/
theorem number_byteText {digit : ℕ → Char}
    (hdigit : ∀ n < 16, digitValue 16 (digit n) = some n) (b : UInt8) {rest : Text}
    (hrest : Stops rest) :
    number (2 ^ 64) 16 (byteText digit b ++ rest) = some (b.toNat, rest) := by
  have hb : b.toNat < 256 := b.toNat_lt
  have hhigh := hdigit (b.toNat / 16) (by omega)
  have hlow := hdigit (b.toNat % 16) (by omega)
  obtain ⟨hspace, hminus, hplus, -, -⟩ := digit_facts hhigh
  obtain ⟨-, -, -, hx, hX⟩ := digit_facts hlow
  have hvalue : 16 * (b.toNat / 16) + b.toNat % 16 = b.toNat := by omega
  have hscan : scanDigits 16 rest b.toNat = (b.toNat, rest) := by
    cases rest with
    | nil => rfl
    | cons c cs => simp [scanDigits, hrest c cs rfl]
  have hmark : dropMark (byteText digit b ++ rest) = byteText digit b ++ rest := by
    cases rest with
    | nil => simp [byteText, dropMark]
    | cons c cs =>
        simp only [byteText, List.cons_append, List.nil_append, dropMark]
        split
        · rename_i heq
          obtain ⟨-, rfl, rfl, rfl⟩ : _ ∧ _ ∧ _ ∧ _ := by
            simpa only [List.cons.injEq] using heq
          rw [if_neg fun h => h.1.elim hx hX]
          exact heq.symm
        · rfl
  have hsign : scanSign (byteText digit b ++ rest) = (false, byteText digit b ++ rest) := by
    simp only [byteText, List.cons_append]
    rw [scanSign]
    · exact fun cs h => hminus (List.cons.inj h).1
    · exact fun cs h => hplus (List.cons.inj h).1
  have hdrop : (byteText digit b ++ rest).dropWhile isAsciiSpace = byteText digit b ++ rest := by
    simp [byteText, hspace]
  rw [number, hdrop, hsign]
  simp only [if_true, hmark]
  simp only [byteText, List.cons_append, List.nil_append, hhigh, scanDigits, hlow, hvalue, hscan]
  rw [if_neg (by omega)]
  rfl

/-- One digit is read as its value. -/
theorem number_digit {c : Char} {d : ℕ} (h : digitValue 16 c = some d) :
    number (2 ^ 64) 16 [c] = some (d, []) := by
  obtain ⟨hspace, hminus, hplus, -, -⟩ := digit_facts h
  have hd : ¬ 2 ^ 64 ≤ d := by
    have := digitValue_lt h
    omega
  have hdrop : [c].dropWhile isAsciiSpace = [c] := by simp [hspace]
  have hsign : scanSign [c] = (false, [c]) := by
    rw [scanSign]
    · exact fun cs hcs => hminus (List.cons.inj hcs).1
    · exact fun cs hcs => hplus (List.cons.inj hcs).1
  have hmark : dropMark [c] = [c] := by simp [dropMark]
  rw [number, hdrop, hsign]
  simp only [if_true, hmark, h, scanDigits, hd, if_false, Bool.false_eq_true]

section Printed

variable {digit : ℕ → Char} {sep : Char} {n : ℕ}

/-- The text of bytes, at the first one. -/
theorem bytesText_cons_cons (digit : ℕ → Char) (sep : Char) (b b' : UInt8)
    (bytes : List UInt8) : bytesText digit sep (b :: b' :: bytes) =
      byteText digit b ++ sep :: bytesText digit sep (b' :: bytes) := by
  simp [bytesText, List.intercalate]

/-- A byte that was printed is read before the rest of the line. -/
theorem scanBytes_byteText (hdigit : ∀ n < 16, digitValue 16 (digit n) = some n)
    (hsep : digitValue 16 sep = none) (b : UInt8) (t : Text) :
    scanBytes sep (n + 2) (byteText digit b ++ sep :: t) =
      (scanBytes sep (n + 1) t).map (.cons b) := by
  rw [scanBytes, number_byteText hdigit b (stops_cons hsep)]
  simp only [Nat.add_eq_zero_iff, Nat.one_ne_zero, and_false, if_false, if_true,
    UInt8.ofNat_toNat]

/-- **What was printed is read back**, when a character that is no digit is behind it. -/
theorem scanBytes_bytesText (hdigit : ∀ n < 16, digitValue 16 (digit n) = some n)
    (hsep : digitValue 16 sep = none) {rest : Text} (hrest : Stops rest)
    (bytes : List.Vector UInt8 n) :
    scanBytes sep n (bytesText digit sep bytes.toList ++ rest) = some bytes := by
  induction n with
  | zero => rw [scanBytes, bytes.eq_nil]
  | succ n ih =>
      obtain ⟨b, tail, rfl⟩ := bytes.exists_eq_cons
      cases n with
      | zero =>
          obtain rfl := tail.eq_nil
          have htext : bytesText digit sep (List.Vector.cons b .nil).toList = byteText digit b :=
            List.append_nil _
          rw [htext, scanBytes, number_byteText hdigit b hrest]
          simp [scanBytes]
      | succ n =>
          obtain ⟨b', tail, rfl⟩ := tail.exists_eq_cons
          have htail := ih (.cons b' tail)
          rw [List.Vector.toList_cons] at htail
          rw [List.Vector.toList_cons, List.Vector.toList_cons, bytesText_cons_cons,
            List.append_assoc, List.cons_append, scanBytes_byteText hdigit hsep, htail,
            Option.map_some]

/-- Printed bytes that are cut short before the last one are not read. -/
theorem scanBytes_take_eq_none (hdigit : ∀ n < 16, digitValue 16 (digit n) = some n)
    (hsep : digitValue 16 sep = none) (bytes : List.Vector UInt8 (n + 1)) {k : ℕ}
    (hk : k ≤ 3 * n) :
    scanBytes sep (n + 1) ((bytesText digit sep bytes.toList).take k) = none := by
  induction n generalizing k with
  | zero =>
      obtain rfl : k = 0 := by omega
      rfl
  | succ n ih =>
      obtain ⟨b, tail, rfl⟩ := bytes.exists_eq_cons
      obtain ⟨b', tail, rfl⟩ := tail.exists_eq_cons
      have hb : b.toNat < 256 := b.toNat_lt
      rw [List.Vector.toList_cons, List.Vector.toList_cons, bytesText_cons_cons]
      match k with
      | 0 => rfl
      | 1 =>
          have htake : (byteText digit b ++ sep :: bytesText digit sep (b' :: tail.toList)).take 1 =
              [digit (b.toNat / 16)] := rfl
          rw [htake, scanBytes, number_digit (hdigit _ (by omega))]
          rfl
      | 2 =>
          have htake : (byteText digit b ++ sep :: bytesText digit sep (b' :: tail.toList)).take 2 =
              byteText digit b ++ [] := rfl
          rw [htake, scanBytes, number_byteText hdigit b stops_nil]
          rfl
      | k + 3 =>
          have htake : (byteText digit b ++ sep :: bytesText digit sep (b' :: tail.toList)).take
              (k + 3) =
                byteText digit b ++ sep :: (bytesText digit sep (b' :: tail.toList)).take k := rfl
          have htail := ih (.cons b' tail) (k := k) (by omega)
          rw [List.Vector.toList_cons] at htail
          rw [htake, scanBytes_byteText hdigit hsep, htail, Option.map_none]

/-- Printed bytes without their last digit are read with that of the last byte missing. -/
theorem scanBytes_take_last (hdigit : ∀ n < 16, digitValue 16 (digit n) = some n)
    (hsep : digitValue 16 sep = none) (bytes : List.Vector UInt8 (n + 1)) :
    scanBytes sep (n + 1) ((bytesText digit sep bytes.toList).take (3 * n + 1)) =
      some (bytes.set (Fin.last n) (bytes.get (Fin.last n) / 16)) := by
  induction n with
  | zero =>
      obtain ⟨b, tail, rfl⟩ := bytes.exists_eq_cons
      obtain rfl := tail.eq_nil
      have hb : b.toNat < 256 := b.toNat_lt
      have htake : (bytesText digit sep (List.Vector.cons b .nil).toList).take 1 =
          [digit (b.toNat / 16)] := rfl
      have hhigh : UInt8.ofNat (b.toNat / 16) = b / 16 := by
        apply UInt8.toNat.inj
        rw [UInt8.toNat_ofNat', UInt8.toNat_div, Nat.mod_eq_of_lt (by omega)]
        rfl
      rw [htake, scanBytes, number_digit (hdigit _ (by omega))]
      simp only [if_true, scanBytes, Option.map_some, hhigh]
      rfl
  | succ n ih =>
      obtain ⟨b, tail, rfl⟩ := bytes.exists_eq_cons
      obtain ⟨b', tail, rfl⟩ := tail.exists_eq_cons
      have htail := ih (.cons b' tail)
      rw [List.Vector.toList_cons] at htail
      have htake : (byteText digit b ++ sep :: bytesText digit sep (b' :: tail.toList)).take
          (3 * (n + 1) + 1) = byteText digit b ++
            sep :: (bytesText digit sep (b' :: tail.toList)).take (3 * n + 1) :=
        rfl
      rw [List.Vector.toList_cons, List.Vector.toList_cons, bytesText_cons_cons, htake,
        scanBytes_byteText hdigit hsep, htail, Option.map_some]
      rfl

end Printed

/-- Bytes that were printed with the same separator are the same if what is behind them
does not begin with a digit. -/
theorem eq_of_bytesText_append {digit : ℕ → Char} {sep : Char}
    (hdigit : ∀ n < 16, digitValue 16 (digit n) = some n) (hsep : digitValue 16 sep = none)
    {n : ℕ} {a b : List.Vector UInt8 n} {s t : Text} (hs : Stops s) (ht : Stops t)
    (h : bytesText digit sep a.toList ++ s = bytesText digit sep b.toList ++ t) : a = b := by
  have ha := scanBytes_bytesText hdigit hsep hs a
  rw [h, scanBytes_bytesText hdigit hsep ht b] at ha
  exact (Option.some.inj ha).symm

/-- The characters of printed bytes. -/
theorem mem_bytesText {digit : ℕ → Char} {sep c : Char} {bytes : List UInt8}
    (h : c ∈ bytesText digit sep bytes) : c = sep ∨ ∃ n < 16, c = digit n := by
  induction bytes with
  | nil => cases h
  | cons b bs ih =>
      have hb : b.toNat < 256 := b.toNat_lt
      have hmem : c ∈ byteText digit b ∨ c = sep ∨ c ∈ bytesText digit sep bs := by
        cases bs with
        | nil =>
            rw [show bytesText digit sep [b] = byteText digit b from List.append_nil _] at h
            exact Or.inl h
        | cons b' bs => simpa [bytesText, List.intercalate] using h
      rcases hmem with hbyte | rfl | htail
      · simp only [byteText, List.mem_cons, List.not_mem_nil, or_false] at hbyte
        rcases hbyte with rfl | rfl
        · exact Or.inr ⟨_, by omega, rfl⟩
        · exact Or.inr ⟨_, by omega, rfl⟩
      · exact Or.inl rfl
      · exact ih htail

/-- Printed bytes have two digits each and separators between them. -/
theorem length_bytesText (digit : ℕ → Char) (sep : Char) (bytes : List UInt8) :
    (bytesText digit sep bytes).length = 3 * bytes.length - 1 := by
  induction bytes with
  | nil => rfl
  | cons b bs ih =>
      cases bs with
      | nil => rfl
      | cons b' bs =>
          have htext : bytesText digit sep (b :: b' :: bs) =
              byteText digit b ++ sep :: bytesText digit sep (b' :: bs) := by
            simp [bytesText, List.intercalate]
          rw [htext, List.length_append, List.length_cons, ih]
          simp only [byteText, List.length_cons, List.length_nil]
          omega

/-- The first line of a text goes on behind one without a newline. -/
theorem firstLine_append {line : Text} (hline : '\n' ∉ line) (rest : Text) :
    firstLine (line ++ rest) = line ++ firstLine rest := by
  induction line with
  | nil => rfl
  | cons c cs ih =>
      have hc : c ≠ '\n' := fun h => hline (h ▸ List.mem_cons_self)
      have htail := ih fun h => hline (List.mem_cons_of_mem _ h)
      rw [List.cons_append, firstLine, if_neg hc, htail, List.cons_append]

/-- The first line is a beginning of the text. -/
theorem exists_eq_firstLine_append (t : Text) : ∃ rest, t = firstLine t ++ rest := by
  induction t with
  | nil => exact ⟨[], rfl⟩
  | cons c cs ih =>
      rw [firstLine]
      split
      · exact ⟨cs, rfl⟩
      · obtain ⟨rest, hrest⟩ := ih
        exact ⟨rest, congrArg (c :: ·) hrest⟩

/-- The first line begins with a text that has no newline exactly when all of it does. -/
theorem firstLine_begins_iff {line t : Text} (hline : '\n' ∉ line) :
    line.isPrefixOf (firstLine t) = true ↔ ∃ rest, t = line ++ rest := by
  rw [List.isPrefixOf_iff_prefix]
  constructor
  · rintro ⟨rest, hrest⟩
    obtain ⟨more, hmore⟩ := exists_eq_firstLine_append t
    exact ⟨rest ++ more, by rw [hmore, ← hrest, List.append_assoc]⟩
  · rintro ⟨rest, rfl⟩
    exact ⟨firstLine rest, (firstLine_append hline rest).symm⟩

/-- What `fgets` reads begins with a text that fits the buffer exactly when the file does. -/
theorem fgets_begins_iff {size : ℕ} {line content : Text} (hline : '\n' ∉ line)
    (hne : line ≠ []) (hsize : line.length < size) :
    (∃ buf, fgets size content = some buf ∧ line.isPrefixOf buf = true) ↔
      ∃ rest, content = line ++ rest := by
  rw [fgets]
  split
  · rename_i hempty
    subst hempty
    refine iff_of_false ?_ ?_
    · rintro ⟨buf, hbuf, -⟩
      cases hbuf
    · rintro ⟨rest, hrest⟩
      exact hne (List.append_eq_nil_iff.mp hrest.symm).1
  · simp only [Option.some.injEq, exists_eq_left', firstLine_begins_iff hline]
    constructor
    · rintro ⟨rest, hrest⟩
      refine ⟨rest ++ content.drop (size - 1), ?_⟩
      rw [← List.append_assoc, ← hrest, List.take_append_drop]
    · rintro ⟨rest, rfl⟩
      exact ⟨rest.take (size - 1 - line.length),
        by rw [List.take_append, List.take_of_length_le (by omega)]⟩

/-- A file that fits the buffer is read up to its first newline. -/
theorem fgets_of_length_lt {size : ℕ} {content : Text} (hne : content ≠ [])
    (hsize : content.length < size) : fgets size content = some (firstLine content) := by
  rw [fgets, if_neg hne, List.take_of_length_le (by omega)]

/-- A line that fits the buffer is read as it is. -/
theorem fgets_line {size : ℕ} {line : Text} (hline : '\n' ∉ line)
    (hsize : line.length + 1 < size) :
    fgets size (line ++ ['\n']) = some (line ++ ['\n']) := by
  have hlength : (line ++ ['\n']).length < size := by
    rw [List.length_append, List.length_singleton]
    exact hsize
  rw [fgets_of_length_lt (by simp) hlength, firstLine_append hline]
  rfl

end V4WithV6Nh
