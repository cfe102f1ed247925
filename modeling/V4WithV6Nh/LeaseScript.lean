import V4WithV6Nh.DerivedGua

/-!
# The GUA of the Lease Script

`v4gw-lease.sh` makes the host's GUA as well, but as text: `gua_nexthop` takes the advertised
prefix from the route dump of `ip`, cuts the MAC at its colons, and pastes the two together.

The prefix ends in a double colon and four groups follow it. So the text is an address, and
the one that the daemon derives, if the prefix has at most three groups. A /64 whose fourth
group is not zero has four, and the text has eight groups and a double colon.

* `builtGua_eq`: what the script pastes.
* `builtGua_denotes_iff`: it is the daemon's GUA exactly when the fourth group is zero.
* `guaNexthop_of_fourth_group`: otherwise the script has no GUA to print.
-/

namespace V4WithV6Nh.LeaseScript

/-! ### The script -/

/-- What the script finds on the router. -/
structure Router where
  /-- `ndisc6` is installed. -/
  ndisc6 : Bool
  /-- The lines of `ip -6 route show dev "$IF"`. -/
  routes : List Text
  /-- Whether `ndisc6` gets an answer for an address. -/
  answers : Text → Bool

/-- `${t%%:*}` -/
def beforeFirst (t : Text) : Text := t.takeWhile fun c => c != ':'

/-- `${t#*:}` -/
def afterFirst (t : Text) : Text :=
  match t.dropWhile fun c => c != ':' with
  | [] => t
  | _ :: cs => cs

/-- `${t##*:}` -/
def afterLast (t : Text) : Text := t.rtakeWhile fun c => c != ':'

/-- `$1` of a line in awk. -/
def field1 (line : Text) : Text := (tokens (fun c => c == ' ' || c == '\t') line).headD []

/-- `^([23]|f[cd]).*::\/64$` -/
def isAdvertised (field : Text) : Bool :=
  match field with
  | '2' :: cs | '3' :: cs | 'f' :: 'c' :: cs | 'f' :: 'd' :: cs =>
      "::/64".toList.isSuffixOf cs
  | _ => false

/-- `pfx`: the first such field without its `/64`. -/
def advertised (routes : List Text) : Text :=
  match routes.find? fun line => isAdvertised (field1 line) with
  | some line => (field1 line).take ((field1 line).length - "/64".length)
  | none => []

/-- `printf '%02x' "$(( 0x$o1 ^ 2 ))"`, if the arithmetic is that of a constant. -/
def flipped (o1 : Text) : Option Text :=
  match number (2 ^ 63) 16 ('0' :: 'x' :: o1) with
  | some (n, []) => some ((hexText (n ^^^ 2)).leftpad 2 '0')
  | _ => none

/-- The `gua` of `gua_nexthop`, if it gets so far. -/
def builtGua (router : Router) (mac : Text) : Option Text :=
  if router.ndisc6 = false then none
  else
    let pfx := advertised router.routes
    if pfx = [] then none
    else
      let o1 := beforeFirst mac
      let r := afterFirst mac
      let o2 := beforeFirst r
      let r := afterFirst r
      let o3 := beforeFirst r
      let r := afterFirst r
      let o4 := beforeFirst r
      let r := afterFirst r
      let o5 := beforeFirst r
      let o6 := afterLast r
      (flipped o1).map fun b1 =>
        pfx ++ b1 ++ o2 ++ ':' :: o3 ++ "ff:fe".toList ++ o4 ++ ':' :: o5 ++ o6

/-- `gua_nexthop`: what it prints. -/
def guaNexthop (router : Router) (mac : Text) : Text :=
  match builtGua router mac with
  | some gua => if router.answers gua then gua ++ ['\n'] else []
  | none => []

/-! ### Cutting the MAC -/

section Cut

variable {t rest : Text}

theorem ne_colon_of_notMem (ht : ':' ∉ t) : ∀ c ∈ t, (c != ':') = true := by
  intro c hc
  refine bne_iff_ne.mpr ?_
  rintro rfl
  exact ht hc

/-- What is in front of the first colon. -/
theorem beforeFirst_append (ht : ':' ∉ t) (rest : Text) : beforeFirst (t ++ ':' :: rest) = t := by
  rw [beforeFirst, List.takeWhile_append_of_pos (ne_colon_of_notMem ht)]
  simp

/-- What is behind the first colon. -/
theorem afterFirst_append (ht : ':' ∉ t) (rest : Text) :
    afterFirst (t ++ ':' :: rest) = rest := by
  rw [afterFirst, List.dropWhile_append_of_pos (ne_colon_of_notMem ht)]
  simp

/-- What is behind the last colon. -/
theorem afterLast_append (ht : ':' ∉ t) (rest : Text) :
    afterLast (rest ++ ':' :: t) = t := by
  rw [afterLast, List.rtakeWhile, List.reverse_append, List.reverse_cons, List.append_assoc,
    List.takeWhile_append_of_pos fun c hc => ne_colon_of_notMem ht c (List.mem_reverse.mp hc)]
  simp

end Cut

/-! ### The octets -/

section Octets

/-- A digit of `printf`. -/
def printed (d : ℕ) (hd : d < 16) : HexDigit := ⟨Nat.digitChar d, d, digitValue_digitChar d hd⟩

/-- What `printf '%02x'` prints of a byte. -/
def printedOctet (n : ℕ) (hn : n < 256) : Octet where
  high := printed (n / 16) (Nat.div_lt_of_lt_mul hn)
  low := printed (n % 16) (Nat.mod_lt n (by decide))

/-- A byte of two digits. -/
theorem hexText_byte {b : ℕ} (hle : 16 ≤ b) (hlt : b < 256) :
    hexText b = [Nat.digitChar (b / 16), Nat.digitChar (b % 16)] := by
  rw [hexText, Nat.toDigits_of_base_le (by decide) hle,
    Nat.toDigits_of_lt_base (Nat.div_lt_of_lt_mul hlt)]
  rfl

theorem leftpad_hexText {n : ℕ} (hn : n < 256) :
    (hexText n).leftpad 2 '0' = (printedOctet n hn).text := by
  by_cases hlow : n < 16
  · rw [hexText, Nat.toDigits_of_lt_base hlow]
    simp [printedOctet, printed, Octet.text, Nat.div_eq_of_lt hlow, Nat.mod_eq_of_lt hlow,
      List.leftpad, Nat.digitChar]
  · rw [hexText_byte (Nat.le_of_not_lt hlow) hn]
    rfl

/-- The arithmetic reads an octet. -/
theorem number_octet (o : Octet) :
    number (2 ^ 63) 16 ('0' :: 'x' :: o.text) = some (o.toNat, []) := by
  have hlt := o.toNat_lt
  have hmark : dropMark ('0' :: 'x' :: o.text) = o.text := by
    rw [Octet.text, dropMark, if_pos]
    exact ⟨.inl rfl, by rw [o.high.digit]; rfl⟩
  have hscan : scanDigits 16 [o.low.char] o.high.value = (o.toNat, []) := by
    rw [scanDigits, o.low.digit]
    rfl
  have hsign : scanSign (('0' :: 'x' :: o.text).dropWhile isAsciiSpace) =
      (false, '0' :: 'x' :: o.text) := rfl
  rw [number, hsign]
  simp only [if_true, hmark]
  simp only [Octet.text, o.high.digit, hscan]
  rw [if_neg (by omega)]
  rfl

/-- The octet with its second bit flipped. -/
def flippedOctet (o : Octet) : Octet :=
  printedOctet (o.toNat ^^^ 2) (Nat.xor_lt_two_pow (n := 8) o.toNat_lt (by decide))

theorem flipped_text (o : Octet) : flipped o.text = some (flippedOctet o).text := by
  rw [flipped, number_octet]
  exact congrArg some (leftpad_hexText _)

theorem value_flippedOctet (o : Octet) : (flippedOctet o).value = o.value ^^^ 0x02#8 := by
  have hnat : (flippedOctet o).toNat = o.toNat ^^^ 2 := Nat.div_add_mod _ 16
  rw [Octet.value, hnat, Octet.value, BitVec.ofNat_xor]

/-- Two octets make a group. -/
theorem parseGroup_octets (o o' : Octet) :
    parseGroup (o.text ++ o'.text) = some (o.value ++ o'.value) := by
  have hscan : scanDigits 16 (o.text ++ o'.text) 0 = (256 * o.toNat + o'.toNat, []) := by
    simp only [Octet.text, List.cons_append, List.nil_append, scanDigits, o.high.digit,
      o.low.digit, o'.high.digit, o'.low.digit, Octet.toNat]
    refine congrArg (·, []) ?_
    omega
  rw [parseGroup, if_pos ⟨by simp [Octet.text], by simp [Octet.text]⟩, hscan]
  have hlt := o.toNat_lt
  have hlt' := o'.toNat_lt
  refine congrArg some (BitVec.eq_of_toNat_eq ?_)
  rw [BitVec.toNat_append, Octet.value, Octet.value, BitVec.toNat_ofNat, BitVec.toNat_ofNat,
    BitVec.toNat_ofNat, Nat.mod_eq_of_lt hlt, Nat.mod_eq_of_lt hlt',
    ← Nat.shiftLeft_add_eq_or_of_lt hlt', Nat.shiftLeft_eq, Nat.mod_eq_of_lt (by omega)]
  omega

end Octets

/-! ### The prefix -/

/-- A global or unique local /64. -/
structure Net64 where
  addr : IPv6
  network : Manager.network64 addr = addr
  global : Manager.isGlobalOrUla addr = true

/-- The line that `ip -6 route show` prints of an on-link /64. -/
def routeLine (net : Net64) (rest : Text) : Text :=
  compressed net.addr ++ "/64".toList ++ ' ' :: rest

section Prefix

variable (net : Net64)

/-- The first four groups. -/
def Net64.head : List Group :=
  [net.addr.extractLsb' 112 16, net.addr.extractLsb' 96 16, net.addr.extractLsb' 80 16,
    net.addr.extractLsb' 64 16]

/-- The other four are zero. -/
theorem low_zero (i : ℕ) (hi : i + 16 ≤ 64) : net.addr.extractLsb' i 16 = 0 := by
  rw [← net.network, Manager.network64]
  ext j hj
  rw [BitVec.getElem_extractLsb', BitVec.getLsbD_shiftLeft, decide_eq_true (by omega : i + j < 64)]
  simp

theorem groups_net : groups net.addr =
    [net.addr.extractLsb' 112 16, net.addr.extractLsb' 96 16, net.addr.extractLsb' 80 16,
      net.addr.extractLsb' 64 16, 0, 0, 0, 0] := by
  rw [groups, low_zero net 48 (by decide), low_zero net 32 (by decide),
    low_zero net 16 (by decide), low_zero net 0 (by decide)]

/-- The first octet is in the range of the global and unique local addresses. -/
theorem first_octet :
    let b := (net.addr.extractLsb' 112 16).toNat / 16 / 16
    (0x20 ≤ b ∧ b ≤ 0x3f) ∨ b = 0xfc ∨ b = 0xfd := by
  have hfirst : (net.addr.extractLsb' 112 16).toNat / 16 / 16 = (net.addr >>> 120).toNat := by
    have hlt := net.addr.isLt
    rw [BitVec.extractLsb'_toNat, BitVec.toNat_ushiftRight, Nat.shiftRight_eq_div_pow,
      Nat.shiftRight_eq_div_pow]
    omega
  have hglobal := net.global
  rw [Manager.isGlobalOrUla] at hglobal
  simp only [Bool.or_eq_true, Bool.and_eq_true, decide_eq_true_eq, beq_iff_eq] at hglobal
  rw [← hfirst, or_assoc] at hglobal
  exact hglobal

theorem first_group_ne_zero : net.addr.extractLsb' 112 16 ≠ 0 := by
  intro h
  have hfirst := first_octet net
  rw [h] at hfirst
  revert hfirst
  decide

/-- The characters of a printed address. -/
theorem mem_joined {ts : List Text} {c : Char} (h : c ∈ joined ts) :
    c = ':' ∨ ∃ t ∈ ts, c ∈ t := by
  induction ts with
  | nil => cases h
  | cons t ts ih =>
      cases ts with
      | nil =>
          have hone : joined [t] = t := by simp [joined, List.intercalate]
          exact .inr ⟨t, List.mem_cons_self, hone ▸ h⟩
      | cons t' ts =>
          rw [joined_cons_cons] at h
          rcases List.mem_append.mp h with h | h
          · exact .inr ⟨t, List.mem_cons_self, h⟩
          · rcases List.mem_cons.mp h with h | h
            · exact .inl h
            · rcases ih h with h | ⟨u, hu, hc⟩
              · exact .inl h
              · exact .inr ⟨u, List.mem_cons_of_mem t hu, hc⟩

/-- The text of the prefix. -/
theorem compressed_net : compressed net.addr =
    joined ((significant net.head).map fun g => hexText g.toNat) ++ ':' :: ':' :: joined [] :=
  compressed_network (groups_net net) (first_group_ne_zero net)

/-- The prefix with its length is one field. -/
theorem isWord_network :
    IsWord (fun c => c == ' ' || c == '\t') (compressed net.addr ++ "/64".toList) := by
  have hblank : ∀ c ∈ compressed net.addr, c = ':' ∨ digitValue 16 c ≠ none := by
    intro c hc
    rw [compressed_net] at hc
    rcases List.mem_append.mp hc with hc | hc
    · rcases mem_joined hc with hc | ⟨t, ht, hc⟩
      · exact .inl hc
      · obtain ⟨g, -, rfl⟩ := List.mem_map.mp ht
        exact .inr (isDigit_of_scanDigits (scanDigits_hexText g.toNat) c hc)
    · simp [joined, List.intercalate] at hc
      exact .inl hc
  have hlength : ∀ c ∈ "/64".toList, (c == ' ' || c == '\t') = false := by simp
  refine ⟨by simp, fun c hc => ?_⟩
  rcases List.mem_append.mp hc with hc | hc
  · rcases hblank c hc with rfl | hdigit
    · rfl
    · refine Bool.eq_false_iff.mpr fun h => ?_
      rcases Bool.or_eq_true_iff.mp h with h | h
      · exact hdigit (eq_of_beq h ▸ by decide)
      · exact hdigit (eq_of_beq h ▸ by decide)
  · exact hlength c hc

theorem field1_routeLine (rest : Text) :
    field1 (routeLine net rest) = compressed net.addr ++ "/64".toList := by
  rw [field1, routeLine, tokens_cons (isWord_network net) rfl]
  rfl

/-- The awk pattern has the first digits of a global or unique local address. -/
theorem isAdvertised_hexText {b : ℕ} (hb : (0x20 ≤ b ∧ b ≤ 0x3f) ∨ b = 0xfc ∨ b = 0xfd)
    {cs : Text} (hcs : "::/64".toList.isSuffixOf cs = true) :
    isAdvertised (hexText b ++ cs) = true := by
  have hsuffix : ∀ c, "::/64".toList.isSuffixOf (c :: cs) = true := fun c =>
    List.isSuffixOf_iff_suffix.mpr
      ((List.isSuffixOf_iff_suffix.mp hcs).trans (List.suffix_cons c cs))
  rw [hexText_byte (by omega) (by omega), List.cons_append, List.cons_append, List.nil_append]
  rcases hb with ⟨hle, hlt⟩ | rfl | rfl
  · have hhigh : b / 16 = 2 ∨ b / 16 = 3 := by omega
    rcases hhigh with h | h
    · rw [h]
      exact hsuffix _
    · rw [h]
      exact hsuffix _
  · exact hcs
  · exact hcs

theorem isAdvertised_routeLine (rest : Text) :
    isAdvertised (field1 (routeLine net rest)) = true := by
  -- the first group is not zero, so it is one of the significant ones
  obtain ⟨gs, hgs⟩ : ∃ gs, significant net.head = net.addr.extractLsb' 112 16 :: gs := by
    have happend := significant_append_replicate net.head
    cases hs : significant net.head with
    | nil =>
        rw [hs, List.nil_append] at happend
        exact absurd (List.cons.inj happend).1.symm (first_group_ne_zero net)
    | cons g gs =>
        rw [hs] at happend
        exact ⟨gs, by rw [(List.cons.inj happend).1]⟩
  have hsplit : ∃ tail, joined ((significant net.head).map fun g => hexText g.toNat) =
      hexText (net.addr.extractLsb' 112 16).toNat ++ tail := by
    rw [hgs, List.map_cons]
    cases gs with
    | nil => exact ⟨[], by simp [joined, List.intercalate]⟩
    | cons g gs => exact ⟨_, joined_cons_cons _ _ _⟩
  obtain ⟨tail, htail⟩ := hsplit
  have hb := first_octet net
  simp only at hb
  have hle : 16 ≤ (net.addr.extractLsb' 112 16).toNat / 16 := by omega
  rw [field1_routeLine, compressed_net, htail, hexText,
    Nat.toDigits_of_base_le (by decide) (by omega), Nat.toDigits_of_base_le (by decide) hle,
    ← hexText]
  simp only [List.append_assoc]
  refine isAdvertised_hexText hb (List.isSuffixOf_iff_suffix.mpr ?_)
  exact ((List.suffix_append tail _).trans (List.suffix_append _ _)).trans
    (List.suffix_append _ _)

/-- **The script takes the prefix** of the first route that it looks for. -/
theorem advertised_eq {before : List Text} (after : List Text) (rest : Text)
    (hbefore : ∀ line ∈ before, isAdvertised (field1 line) = false) :
    advertised (before ++ routeLine net rest :: after) = compressed net.addr := by
  have hfind : (before ++ routeLine net rest :: after).find?
      (fun line => isAdvertised (field1 line)) = some (routeLine net rest) := by
    rw [List.find?_append, List.find?_eq_none.mpr fun line hline => by
      rw [hbefore line hline]; exact Bool.false_ne_true]
    exact List.find?_cons_of_pos (p := fun line => isAdvertised (field1 line))
      (isAdvertised_routeLine net rest)
  rw [advertised, hfind]
  simp only
  rw [field1_routeLine]
  exact List.take_left' (by rw [List.length_append]; rfl)

end Prefix

/-! ### The address -/

section Address

variable {net : Net64} {before after : List Text} {rest : Text} {answers : Text → Bool}

/-- **What the script pastes**: four groups behind the double colon of the prefix. -/
theorem builtGua_eq (hbefore : ∀ line ∈ before, isAdvertised (field1 line) = false)
    (o1 o2 o3 o4 o5 o6 : Octet) :
    builtGua ⟨true, before ++ routeLine net rest :: after, answers⟩
        (macText [o1, o2, o3, o4, o5, o6]) =
      some (joined ((significant net.head).map fun g => hexText g.toNat) ++ ':' :: ':' ::
        joined [(flippedOctet o1).text ++ o2.text, o3.text ++ ['f', 'f'], ['f', 'e'] ++ o4.text,
          o5.text ++ o6.text]) := by
  have hmac : macText [o1, o2, o3, o4, o5, o6] = o1.text ++ ':' :: (o2.text ++ ':' ::
      (o3.text ++ ':' :: (o4.text ++ ':' :: (o5.text ++ ':' :: o6.text)))) := by
    simp [macText, joined, List.intercalate]
  have hne : compressed net.addr ≠ [] := by
    rw [compressed_net]
    exact List.append_ne_nil_of_right_ne_nil _ (List.cons_ne_nil _ _)
  rw [builtGua, if_neg (by simp)]
  simp only
  rw [advertised_eq net after rest hbefore, if_neg hne, hmac]
  simp only [beforeFirst_append o1.word, afterFirst_append o1.word, beforeFirst_append o2.word,
    afterFirst_append o2.word, beforeFirst_append o3.word, afterFirst_append o3.word,
    beforeFirst_append o4.word, afterFirst_append o4.word, beforeFirst_append o5.word,
    afterLast_append o6.word, flipped_text, Option.map_some]
  rw [compressed_net]
  simp [joined, List.intercalate]

/-- The groups that the script pastes are those of the modified EUI-64. -/
theorem spells_iid (o1 o2 o3 o4 o5 o6 : Octet) :
    Spells [(flippedOctet o1).text ++ o2.text, o3.text ++ ['f', 'f'], ['f', 'e'] ++ o4.text,
        o5.text ++ o6.text]
      [(o1.value ^^^ 0x02#8) ++ o2.value, o3.value ++ 0xff#8, 0xfe#8 ++ o4.value,
        o5.value ++ o6.value] := by
  let f : HexDigit := ⟨'f', 15, rfl⟩
  let e : HexDigit := ⟨'e', 14, rfl⟩
  refine .cons ?_ (.cons ?_ (.cons ?_ (.cons (parseGroup_octets o5 o6) .nil)))
  · rw [parseGroup_octets, value_flippedOctet]
  · exact parseGroup_octets o3 ⟨f, f⟩
  · exact parseGroup_octets ⟨f, e⟩ o4

/-- The groups of the modified EUI-64. -/
theorem eui64_eq (m0 m1 m2 m3 m4 m5 : BitVec 8) :
    Manager.eui64 m0 m1 m2 m3 m4 m5 =
      ((m0 ^^^ 0x02#8) ++ m1) ++ (m2 ++ 0xff#8) ++ (0xfe#8 ++ m3) ++ (m4 ++ m5) := by
  refine BitVec.eq_of_toNat_eq ?_
  simp only [Manager.eui64, BitVec.toNat_append, Nat.shiftLeft_or_distrib, ← Nat.shiftLeft_add,
    Nat.or_assoc]

/-- A /64 and an interface identifier. -/
theorem network_or (net : Net64) (iid : BitVec 64) :
    net.addr ||| iid.setWidth 128 =
      (net.addr.extractLsb' 112 16 ++ net.addr.extractLsb' 96 16 ++
        net.addr.extractLsb' 80 16 ++ net.addr.extractLsb' 64 16) ++ iid := by
  have hhead : net.addr.extractLsb' 112 16 ++ net.addr.extractLsb' 96 16 ++
      net.addr.extractLsb' 80 16 ++ net.addr.extractLsb' 64 16 =
        net.addr.extractLsb' 64 64 := by
    rw [BitVec.extractLsb'_append_extractLsb'_eq_extractLsb' (by rfl),
      BitVec.extractLsb'_append_extractLsb'_eq_extractLsb' (by rfl),
      BitVec.extractLsb'_append_extractLsb'_eq_extractLsb' (by rfl)]
  have hnet : net.addr = Manager.netAddress (net.addr.extractLsb' 64 64) := by
    rw [← Manager.network64_eq, net.network]
  rw [hhead]
  conv_lhs => rw [hnet, Manager.netAddress_or]

/-- Less than four groups count exactly when the fourth is zero. -/
theorem length_significant_head (net : Net64) :
    (significant net.head).length < 4 ↔ net.addr.extractLsb' 64 16 = 0 :=
  Nat.lt_succ_iff.trans (length_significant_concat
    [net.addr.extractLsb' 112 16, net.addr.extractLsb' 96 16, net.addr.extractLsb' 80 16] _)

variable [UnicodeTables]

/-- **What the pasted text denotes**: the daemon's GUA if the fourth group of the prefix is
zero, and nothing otherwise. -/
theorem parseIPv6_pasted (net : Net64) (o1 o2 o3 o4 o5 o6 : Octet) :
    parseIPv6 (joined ((significant net.head).map fun g => hexText g.toNat) ++ ':' :: ':' ::
        joined [(flippedOctet o1).text ++ o2.text, o3.text ++ ['f', 'f'], ['f', 'e'] ++ o4.text,
          o5.text ++ o6.text]) =
      if net.addr.extractLsb' 64 16 = 0 then
        Manager.deriveGua net.addr (macText [o1, o2, o3, o4, o5, o6])
      else none := by
  rw [parseIPv6_double (spells_map_hexText (significant net.head)) (spells_iid o1 o2 o3 o4 o5 o6),
    Manager.deriveGua_macText]
  by_cases hzero : net.addr.extractLsb' 64 16 = 0
  · have hlength := (length_significant_head net).mpr hzero
    have hzeros : 8 - ((significant net.head).length + 4) =
        net.head.length - (significant net.head).length :=
      Nat.add_sub_add_right net.head.length 4 _
    simp only [List.length_cons, List.length_nil]
    rw [if_pos (by omega), if_pos hzero, hzeros, significant_append_replicate, network_or, eui64_eq]
    rfl
  · -- the four groups of the prefix leave no group for the double colon
    have hlength := mt (length_significant_head net).mp hzero
    rw [if_neg (by simpa using hlength), if_neg hzero]

/-- **The script makes the daemon's GUA** exactly for the prefixes whose fourth group is
zero. -/
theorem builtGua_denotes_iff (net : Net64) (before after : List Text) (rest : Text)
    (answers : Text → Bool) (o1 o2 o3 o4 o5 o6 : Octet)
    (hbefore : ∀ line ∈ before, isAdvertised (field1 line) = false) :
    (∃ gua addr, builtGua ⟨true, before ++ routeLine net rest :: after, answers⟩
        (macText [o1, o2, o3, o4, o5, o6]) = some gua ∧ parseIPv6 gua = some addr ∧
        Manager.deriveGua net.addr (macText [o1, o2, o3, o4, o5, o6]) = some addr) ↔
      net.addr.extractLsb' 64 16 = 0 := by
  rw [builtGua_eq hbefore]
  constructor
  · rintro ⟨gua, addr, hbuilt, haddr, -⟩
    obtain rfl := Option.some.inj hbuilt
    by_contra hne
    rw [parseIPv6_pasted, if_neg hne] at haddr
    cases haddr
  · intro hzero
    have hderived := Manager.deriveGua_macText net.addr o1 o2 o3 o4 o5 o6
    refine ⟨_, _, rfl, ?_, hderived⟩
    rw [parseIPv6_pasted, if_pos hzero, hderived]

/-- With any other prefix the script prints nothing, since a text that is no address is not
answered. -/
theorem guaNexthop_of_fourth_group (net : Net64) (before after : List Text) (rest : Text)
    (o1 o2 o3 o4 o5 o6 : Octet)
    (hbefore : ∀ line ∈ before, isAdvertised (field1 line) = false)
    (hfourth : net.addr.extractLsb' 64 16 ≠ 0)
    (hanswers : ∀ t, parseIPv6 t = none → answers t = false) :
    guaNexthop ⟨true, before ++ routeLine net rest :: after, answers⟩
      (macText [o1, o2, o3, o4, o5, o6]) = [] := by
  have hunanswered := hanswers _ ((parseIPv6_pasted net o1 o2 o3 o4 o5 o6).trans (if_neg hfourth))
  rw [guaNexthop, builtGua_eq hbefore]
  simp only [hunanswered]
  rfl

end Address

/-- The prefix of the testbed. -/
def testbed : Net64 where
  addr := 0x20010db8000000000000000000000000#128
  network := by decide
  global := by decide

/-- A prefix that a site has for one of its many segments. -/
def segment : Net64 where
  addr := 0x20010db8000100020000000000000000#128
  network := by decide
  global := by decide

/-- The octet of two digits. -/
def octet (high low : ℕ) (hhigh : high < 16) (hlow : low < 16) : Octet :=
  ⟨printed high hhigh, printed low hlow⟩

/-- On the testbed the script makes the daemon's GUA. -/
theorem testbed_denotes :
    ∃ gua addr, builtGua ⟨true, ["fe80::/64 proto kernel metric 256 pref medium".toList,
          routeLine testbed "proto kernel metric 256 pref medium".toList], fun _ => true⟩
        "02:11:22:33:44:55".toList = some gua ∧ parseIPv6 gua = some addr ∧
      Manager.deriveGua testbed.addr "02:11:22:33:44:55".toList = some addr :=
  (builtGua_denotes_iff testbed ["fe80::/64 proto kernel metric 256 pref medium".toList] []
    "proto kernel metric 256 pref medium".toList (fun _ => true) (octet 0 2 (by decide) (by decide))
    (octet 1 1 (by decide) (by decide)) (octet 2 2 (by decide) (by decide))
    (octet 3 3 (by decide) (by decide)) (octet 4 4 (by decide) (by decide))
    (octet 5 5 (by decide) (by decide)) (by decide)).mpr (by decide)

/-- A prefix with four groups: eight groups and a double colon are no address. -/
theorem segment_no_address :
    builtGua ⟨true, [routeLine segment "proto kernel metric 256 pref medium".toList],
        fun _ => true⟩ "02:11:22:33:44:55".toList =
      some "2001:db8:1:2::0011:22ff:fe33:4455".toList ∧
    parseIPv6 "2001:db8:1:2::0011:22ff:fe33:4455".toList = none ∧
    Manager.deriveGua segment.addr "02:11:22:33:44:55".toList =
      some 0x20010db800010002001122fffe334455#128 := by
  refine ⟨?_, ?_, ?_⟩ <;> decide

end V4WithV6Nh.LeaseScript
