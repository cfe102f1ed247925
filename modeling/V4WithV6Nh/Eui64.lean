import V4WithV6Nh.Ipv6Text
import V4WithV6Nh.Manager

/-!
# The Derived GUA of a MAC

`derive_gua` makes a host's GUA of the advertised /64 and the modified EUI-64 of its MAC. A
MAC is six octets of two hexadecimal digits each, in either case, with colons between them.
`deriveGua_macText` is the address in terms of the values of the octets.
-/

namespace V4WithV6Nh

/-- A hexadecimal digit, in either case. -/
structure HexDigit where
  char : Char
  value : ℕ
  digit : digitValue 16 char = some value

/-- A byte as two digits. -/
structure Octet where
  high : HexDigit
  low : HexDigit

/-- How the octet is written. -/
def Octet.text (o : Octet) : Text := [o.high.char, o.low.char]

/-- The number that the octet is. -/
def Octet.toNat (o : Octet) : ℕ := 16 * o.high.value + o.low.value

/-- The byte. -/
def Octet.value (o : Octet) : BitVec 8 := BitVec.ofNat 8 o.toNat

/-- A MAC as text. -/
def macText (octets : List Octet) : Text := joined (octets.map Octet.text)

section Digits

variable {c : Char} {d : ℕ}

theorem Octet.toNat_lt (o : Octet) : o.toNat < 256 := by
  have hhigh := digitValue_lt o.high.digit
  have hlow := digitValue_lt o.low.digit
  rw [Octet.toNat]
  omega

/-- A digit is no colon. -/
theorem Octet.word (o : Octet) : ':' ∉ o.text := by
  intro h
  have hcolon : digitValue 16 ':' = none := by decide
  rcases List.mem_cons.mp h with h | h
  · cases hcolon.symm.trans (h ▸ o.high.digit)
  · cases hcolon.symm.trans (List.mem_singleton.mp h ▸ o.low.digit)

/-- An octet has no `0x` in front. -/
theorem dropHexMark_text (o : Octet) : dropHexMark o.text = o.text := by
  obtain ⟨-, -, -, hx, hX⟩ := digit_facts o.low.digit
  rw [Octet.text, dropHexMark]
  all_goals
    intro cs h
    have hlow := (List.cons.inj (List.cons.inj h).2).1
    first
      | exact hx hlow
      | exact hX hlow

/-- Python and C agree about the digits in ASCII. -/
theorem hexDigit_of_digitValue (h : digitValue 16 c = some d) : hexDigit c = some d := by
  have hlt := digitValue_lt h
  simp only [digitValue, Option.ite_none_right_eq_some, Option.some.injEq] at h
  obtain ⟨-, h⟩ := h
  rw [hexDigit]
  split at h
  · rename_i hc
    rw [if_pos hc, h]
  · rename_i hdigit
    rw [if_neg hdigit]
    split at h
    · rename_i hc
      have hf : c ≤ 'f' := by
        have hle : 'a'.toNat ≤ c.toNat := hc.1
        have ha : 'a'.toNat = 97 := rfl
        have hf : c.toNat ≤ 102 := by omega
        exact hf
      rw [if_pos ⟨hc.1, hf⟩, h]
    · rename_i hlower
      have hnot : ¬ ('a' ≤ c ∧ c ≤ 'f') := fun hc =>
        hlower ⟨hc.1, UInt32.le_trans hc.2 (by decide)⟩
      rw [if_neg hnot]
      split at h
      · rename_i hc
        have hF : c ≤ 'F' := by
          have hle : 'A'.toNat ≤ c.toNat := hc.1
          have hA : 'A'.toNat = 65 := rfl
          have hF : c.toNat ≤ 70 := by omega
          exact hF
        rw [if_pos ⟨hc.1, hF⟩, h]
      · omega

/-- A digit of a literal adds to its value. -/
theorem hexDigits_cons (h : digitValue 16 c = some d) (cs : Text) (n : ℕ) (afterDigit : Bool) :
    hexDigits (c :: cs) n afterDigit = hexDigits cs (16 * n + d) true := by
  have hunder : c ≠ '_' := by
    rintro rfl
    cases (by decide : digitValue 16 '_' = none).symm.trans h
  rw [hexDigits, hexDigit_of_digitValue h]
  · rfl
  · exact fun _ => hunder

/-- `int` reads an octet. -/
theorem int16_text [UnicodeTables] (o : Octet) : int16 o.text = some (o.toNat : ℤ) := by
  obtain ⟨hspace, hminus, hplus, -, -⟩ := digit_facts o.high.digit
  obtain ⟨hspace', -⟩ := digit_facts o.low.digit
  have hstrip : (o.text.dropWhile isAsciiSpace).rdropWhile isAsciiSpace = o.text := by
    rw [Octet.text, List.dropWhile_cons_of_neg (by rw [hspace]; exact Bool.false_ne_true)]
    exact List.rdropWhile_concat_neg _ [o.high.char] _ (by rw [hspace']; exact Bool.false_ne_true)
  have hascii : o.text.map asciiOf = o.text := by
    refine map_asciiOf (List.forall_mem_cons.mpr ⟨toNat_lt_of_digitValue o.high.digit, ?_⟩)
    exact List.forall_mem_singleton.mpr (toNat_lt_of_digitValue o.low.digit)
  have hdigits : hexDigits o.text 0 false = some o.toNat := by
    rw [Octet.text, hexDigits_cons o.high.digit, hexDigits_cons o.low.digit, hexDigits, if_pos rfl,
      Nat.mul_zero, Nat.zero_add, Octet.toNat]
  rw [int16, hascii, hstrip]
  split
  · rename_i h
    exact absurd (List.cons.inj h).1 hminus
  · rename_i h
    exact absurd (List.cons.inj h).1 hplus
  · rw [dropHexMark_text, hdigits]
    rfl

end Digits

/-- The fields of a MAC are its octets. -/
theorem splitOn_macText {octets : List Octet} (hne : octets ≠ []) :
    (macText octets).splitOn ':' = octets.map Octet.text := by
  refine List.splitOn_intercalate ':' (fun l hl => ?_) (by simpa using hne)
  obtain ⟨o, -, rfl⟩ := List.mem_map.mp hl
  exact o.word

namespace Manager

variable [UnicodeTables]

/-- An octet is in the range of `bytes`. -/
theorem macOctet_text (o : Octet) : macOctet o.text = some o.value := by
  have hlt := o.toNat_lt
  rw [macOctet, int16_text, Option.bind_eq_bind, Option.bind_some, if_pos (by omega),
    Int.toNat_natCast, Octet.value]

/-- The octets of a MAC are read. -/
theorem mapM_macOctet (octets : List Octet) :
    (octets.map Octet.text).mapM macOctet = some (octets.map Octet.value) := by
  induction octets with
  | nil => rfl
  | cons o octets ih =>
      rw [List.map_cons, List.mapM_cons, ih, macOctet_text]
      rfl

/-- The modified EUI-64 of a MAC. -/
def eui64 (m0 m1 m2 m3 m4 m5 : BitVec 8) : BitVec 64 :=
  (m0 ^^^ 0x02#8) ++ m1 ++ m2 ++ 0xff#8 ++ 0xfe#8 ++ m3 ++ m4 ++ m5

/-- **The derived GUA** of a MAC that is written as six octets. -/
theorem deriveGua_macText (net : IPv6) (o0 o1 o2 o3 o4 o5 : Octet) :
    deriveGua net (macText [o0, o1, o2, o3, o4, o5]) =
      some (net |||
        (eui64 o0.value o1.value o2.value o3.value o4.value o5.value).setWidth 128) := by
  rw [deriveGua, splitOn_macText (List.cons_ne_nil _ _), mapM_macOctet]
  rfl

end Manager

end V4WithV6Nh
