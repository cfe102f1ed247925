import V4WithV6Nh.Eui64

/-!
# What a Derived GUA Tells

`derive_gua` puts the modified EUI-64 of a MAC behind the /64. It keeps both: the network is
the high half of the address, and the octets of the MAC are read off the low half. Of any
other text it makes nothing, and whatever the text is, it does not raise.

## Main results

* `deriveGuaRaising_eq`: the body with its exceptions returns what `deriveGua` says.
* `deriveGua_eq_some_iff`: which texts give an address, and which.
* `deriveGua_faithful`: the address of six octets is in the network and ends in their
  modified EUI-64, an address determines the network and the octets, and there is none for
  another number of fields or a field that is no octet.
-/

namespace V4WithV6Nh.Manager

/-! ### Exceptions -/

/-- What the body of `derive_gua` may raise: `int` and `bytes` a `ValueError`, and
`IPv6Address` an `AddressValueError`. -/
inductive Raised
  | valueError
  | addressValueError
deriving DecidableEq

/-- A result, or an exception. -/
def orRaise {α : Type} (e : Raised) (o : Option α) : Except Raised α := o.elim (.error e) .ok

/-- An element of `bytes`. -/
def toByte (n : ℤ) : Except Raised (BitVec 8) :=
  if 0 ≤ n ∧ n < 256 then .ok (BitVec.ofNat 8 n.toNat) else .error .valueError

/-- `int.from_bytes(iid, "big")`. -/
def fromBytes (bytes : List (BitVec 8)) : ℕ := bytes.foldl (fun n b => 256 * n + b.toNat) 0

/-- `IPv6Address(n)`. -/
def ipv6Address (n : ℕ) : Except Raised IPv6 :=
  if n < 2 ^ 128 then .ok (BitVec.ofNat 128 n) else .error .addressValueError

/-- The body of `derive_gua`, on integers and with its exceptions. -/
def deriveGuaRaising [UnicodeTables] (net : IPv6) (mac : Text) : Except Raised (Option IPv6) :=
  match (mac.splitOn ':').mapM fun x => orRaise .valueError (int16 x) >>= toByte with
  | .error .valueError => .ok none
  | .error e => .error e
  | .ok [m0, m1, m2, m3, m4, m5] =>
      let iid := [m0 ^^^ 0x02#8, m1, m2, 0xff#8, 0xfe#8, m3, m4, m5]
      (ipv6Address (net.toNat ||| fromBytes iid)).map some
  | .ok _ => .ok none

/-- Elements that may raise, one after the other. -/
theorem mapM_orRaise {α β : Type} (e : Raised) (f : α → Option β) (l : List α) :
    (l.mapM fun a => orRaise e (f a)) = orRaise e (l.mapM f) := by
  induction l with
  | nil => rfl
  | cons a l ih =>
      rw [List.mapM_cons, List.mapM_cons, ih]
      cases f a with
      | none => rfl
      | some b => cases l.mapM f <;> rfl

/-- A byte more. -/
theorem toNat_append_byte {w : ℕ} (x : BitVec w) (b : BitVec 8) :
    256 * x.toNat + b.toNat = (x ++ b).toNat := by
  rw [BitVec.toNat_append, ← Nat.shiftLeft_add_eq_or_of_lt b.isLt, Nat.shiftLeft_eq,
    Nat.mul_comm]

/-- The bytes of the identifier are its number. -/
theorem fromBytes_eq (b0 b1 b2 b3 b4 b5 b6 b7 : BitVec 8) :
    fromBytes [b0, b1, b2, b3, b4, b5, b6, b7] =
      (b0 ++ b1 ++ b2 ++ b3 ++ b4 ++ b5 ++ b6 ++ b7).toNat := by
  simp only [fromBytes, List.foldl_cons, List.foldl_nil, Nat.mul_zero, Nat.zero_add,
    toNat_append_byte]

/-- `IPv6Address` of the number of an address. -/
theorem ipv6Address_toNat (a : IPv6) : ipv6Address a.toNat = .ok a := by
  rw [ipv6Address, if_pos a.isLt, BitVec.ofNat_toNat, BitVec.setWidth_eq]

section Texts

variable [UnicodeTables]

/-- An octet that is not one raises a `ValueError`. -/
theorem toByte_int16 (x : Text) :
    (orRaise .valueError (int16 x) >>= toByte) = orRaise .valueError (macOctet x) := by
  rw [macOctet]
  cases int16 x with
  | none => rfl
  | some n =>
      change toByte n = orRaise _ (if 0 ≤ n ∧ n < 256 then _ else none)
      rw [toByte]
      split <;> rfl

/-- **Nothing is raised**: the body returns what `deriveGua` says, for every network and
every text. -/
theorem deriveGuaRaising_eq (net : IPv6) (mac : Text) :
    deriveGuaRaising net mac = .ok (deriveGua net mac) := by
  have hfields : ((mac.splitOn ':').mapM fun x => orRaise .valueError (int16 x) >>= toByte) =
      orRaise .valueError ((mac.splitOn ':').mapM macOctet) := by
    simp only [toByte_int16]
    exact mapM_orRaise .valueError macOctet _
  rw [deriveGuaRaising, hfields, deriveGua]
  cases (mac.splitOn ':').mapM macOctet with
  | none => rfl
  | some bytes =>
      obtain _ | ⟨m0, _ | ⟨m1, _ | ⟨m2, _ | ⟨m3, _ | ⟨m4, _ | ⟨m5, _ | ⟨m6, rest⟩⟩⟩⟩⟩⟩⟩ := bytes
      case cons.cons.cons.cons.cons.cons.nil =>
        have hor : net.toNat ||| (eui64 m0 m1 m2 m3 m4 m5).toNat =
            (net ||| (eui64 m0 m1 m2 m3 m4 m5).setWidth 128).toNat := by
          rw [BitVec.toNat_or, BitVec.toNat_setWidth_of_le (by decide)]
        change Except.map some (ipv6Address (net.toNat ||| fromBytes _)) = _
        rw [fromBytes_eq, ← eui64, hor, ipv6Address_toNat]
        rfl
      all_goals rfl

end Texts

/-! ### The two halves -/

/-- The address of a /64 network. -/
def netAddress (p : BitVec 64) : IPv6 := p ++ 0#64

/-- The network of a /64. -/
theorem network64_eq (dst : IPv6) : network64 dst = netAddress (dst.extractLsb' 64 64) := by
  ext j hj
  rw [network64, netAddress, BitVec.getElem_shiftLeft, BitVec.getElem_append]
  by_cases hlow : j < 64
  · simp [hlow]
  · simp [hlow]

/-- An identifier goes into the empty half. -/
theorem netAddress_or (p iid : BitVec 64) : netAddress p ||| iid.setWidth 128 = p ++ iid := by
  have hiid : iid.setWidth 128 = 0#64 ++ iid := BitVec.setWidth_eq_append (by decide)
  rw [netAddress, hiid, BitVec.or_append, BitVec.or_zero, BitVec.zero_or]

/-- The octets of a MAC, off the low half of an address. -/
def recoverMac (a : IPv6) : List (BitVec 8) :=
  [a.extractLsb' 56 8 ^^^ 0x02#8, a.extractLsb' 48 8, a.extractLsb' 40 8, a.extractLsb' 16 8,
    a.extractLsb' 8 8, a.extractLsb' 0 8]

/-- They are what the identifier was made of. -/
theorem recoverMac_append (p : BitVec 64) (m0 m1 m2 m3 m4 m5 : BitVec 8) :
    recoverMac (p ++ eui64 m0 m1 m2 m3 m4 m5) = [m0, m1, m2, m3, m4, m5] := by
  have hxor : m0 ^^^ 0x02#8 ^^^ 0x02#8 = m0 := by
    rw [BitVec.xor_assoc, BitVec.xor_self, BitVec.xor_zero]
  have hlow : ∀ k ≤ 56, (p ++ eui64 m0 m1 m2 m3 m4 m5).extractLsb' k 8 =
      (eui64 m0 m1 m2 m3 m4 m5).extractLsb' k 8 :=
    fun k hk => BitVec.extractLsb'_append_eq_of_add_le (by omega)
  simp only [recoverMac, hlow 56 (by decide), hlow 48 (by decide), hlow 40 (by decide),
    hlow 16 (by decide), hlow 8 (by decide), hlow 0 (by decide)]
  simp (disch := decide) only [eui64, BitVec.extractLsb'_append_eq_of_le,
    BitVec.extractLsb'_append_eq_right, Nat.reduceSub, Nat.sub_self]
  rw [BitVec.extractLsb'_eq_self, hxor]

/-! ### Texts and addresses -/

section Addresses

variable [UnicodeTables] {p p' : BitVec 64} {net a : IPv6} {mac mac' : Text}

/-- The octets that `bytes` makes of a text. -/
def macBytes (mac : Text) : Option (List (BitVec 8)) := (mac.splitOn ':').mapM macOctet

/-- **Which texts give an address**: those of six octets, and it is the network with their
modified EUI-64. -/
theorem deriveGua_eq_some_iff : deriveGua (netAddress p) mac = some a ↔
    ∃ m0 m1 m2 m3 m4 m5, macBytes mac = some [m0, m1, m2, m3, m4, m5] ∧
      a = p ++ eui64 m0 m1 m2 m3 m4 m5 := by
  constructor
  · intro h
    rw [deriveGua] at h
    split at h
    · rename_i m0 m1 m2 m3 m4 m5 hbytes
      refine ⟨m0, m1, m2, m3, m4, m5, hbytes, ?_⟩
      rw [← netAddress_or]
      exact (Option.some.inj h).symm
    · cases h
  · rintro ⟨m0, m1, m2, m3, m4, m5, hbytes, rfl⟩
    rw [macBytes] at hbytes
    rw [deriveGua, hbytes, ← netAddress_or]
    rfl

/-- What a derived address tells: its network, and the octets of the MAC. -/
theorem of_deriveGua (h : deriveGua (netAddress p) mac = some a) :
    a.extractLsb' 64 64 = p ∧ macBytes mac = some (recoverMac a) := by
  obtain ⟨m0, m1, m2, m3, m4, m5, hbytes, rfl⟩ := deriveGua_eq_some_iff.mp h
  exact ⟨BitVec.extractLsb'_append_eq_left, by rw [recoverMac_append, hbytes]⟩

/-- Two networks or two MACs do not share an address. -/
theorem deriveGua_injective (h : deriveGua (netAddress p) mac = some a)
    (h' : deriveGua (netAddress p') mac' = some a) : p = p' ∧ macBytes mac = macBytes mac' := by
  obtain ⟨hnet, hmac⟩ := of_deriveGua h
  obtain ⟨hnet', hmac'⟩ := of_deriveGua h'
  exact ⟨hnet.symm.trans hnet', hmac.trans hmac'.symm⟩

/-- Six octets as text are read. -/
theorem macBytes_macText (o0 o1 o2 o3 o4 o5 : Octet) :
    macBytes (macText [o0, o1, o2, o3, o4, o5]) =
      some [o0.value, o1.value, o2.value, o3.value, o4.value, o5.value] := by
  rw [macBytes, splitOn_macText (List.cons_ne_nil _ _), mapM_macOctet]
  rfl

/-- There is no address without six fields that are all octets. -/
theorem deriveGua_eq_none (h : (mac.splitOn ':').length ≠ 6 ∨
    ∃ x ∈ mac.splitOn ':', ∀ n, int16 x = some n → n < 0 ∨ 256 ≤ n) :
    deriveGua net mac = none := by
  rw [deriveGua]
  split
  · rename_i m0 m1 m2 m3 m4 m5 hbytes
    rcases h with hcount | ⟨x, hx, hrange⟩
    · exact absurd (mapM_eq_some_iff.mp hbytes).length_eq hcount
    · obtain ⟨b, hb⟩ := exists_of_mapM_eq_some hbytes x hx
      rw [macOctet] at hb
      obtain ⟨n, hn, hbyte⟩ := Option.bind_eq_some_iff.mp hb
      have hnot : ¬ (0 ≤ n ∧ n < 256) := by
        have := hrange n hn
        omega
      rw [if_neg hnot] at hbyte
      cases hbyte
  · rfl

/-- **The derived GUA is faithful to the network and the MAC**, without raising: six octets
give an address in the network whose low half is their modified EUI-64, the octets can be
read off it, so no two networks or MACs share one, and a text with another number of fields
or with a field outside of 0..255 gives none. -/
theorem deriveGua_faithful :
    (∀ (p : BitVec 64) (mac : Text) (m0 m1 m2 m3 m4 m5 : BitVec 8),
      macBytes mac = some [m0, m1, m2, m3, m4, m5] →
      ∃ a, deriveGuaRaising (netAddress p) mac = .ok (some a) ∧ a.extractLsb' 64 64 = p ∧
        a.extractLsb' 0 64 = eui64 m0 m1 m2 m3 m4 m5 ∧
        recoverMac a = [m0, m1, m2, m3, m4, m5]) ∧
    (∀ o0 o1 o2 o3 o4 o5 : Octet, macBytes (macText [o0, o1, o2, o3, o4, o5]) =
      some [o0.value, o1.value, o2.value, o3.value, o4.value, o5.value]) ∧
    (∀ (p p' : BitVec 64) (mac mac' : Text) (a : IPv6),
      deriveGuaRaising (netAddress p) mac = .ok (some a) →
      deriveGuaRaising (netAddress p') mac' = .ok (some a) →
      p = p' ∧ macBytes mac = macBytes mac') ∧
    ∀ (net : IPv6) (mac : Text), ((mac.splitOn ':').length ≠ 6 ∨
        ∃ x ∈ mac.splitOn ':', ∀ n, int16 x = some n → n < 0 ∨ 256 ≤ n) →
      deriveGuaRaising net mac = .ok none := by
  simp only [deriveGuaRaising_eq, Except.ok.injEq]
  refine ⟨fun p mac m0 m1 m2 m3 m4 m5 hbytes => ?_, macBytes_macText,
    fun _ _ _ _ _ h h' => deriveGua_injective h h', fun _ _ h => deriveGua_eq_none h⟩
  exact ⟨_, deriveGua_eq_some_iff.mpr ⟨m0, m1, m2, m3, m4, m5, hbytes, rfl⟩,
    BitVec.extractLsb'_append_eq_left, BitVec.extractLsb'_append_eq_right,
    recoverMac_append p m0 m1 m2 m3 m4 m5⟩

end Addresses

/-! ### A MAC in two spellings -/

/-- `b8:69:f4:1b:ea:7b` in the network 2001:db8:0:1::/64 is found again in its address, from
either spelling; five octets and an octet of three digits give no address. -/
theorem deriveGua_faithful_mac :
    (∃ a, deriveGuaRaising (netAddress 0x20010db800000001#64) "b8:69:f4:1b:ea:7b".toList =
        .ok (some a) ∧ recoverMac a = [0xb8, 0x69, 0xf4, 0x1b, 0xea, 0x7b]) ∧
      macBytes "b8:69:f4:1b:ea:7b".toList = macBytes "B8:69:F4:1B:EA:7B".toList ∧
      deriveGuaRaising (netAddress 0x20010db800000001#64) "b8:69:f4:1b:ea".toList = .ok none ∧
      deriveGuaRaising (netAddress 0x20010db800000001#64) "b8:69:f4:1b:ea:100".toList =
        .ok none := by
  have hlower : macBytes "b8:69:f4:1b:ea:7b".toList =
      some [0xb8, 0x69, 0xf4, 0x1b, 0xea, 0x7b] := by decide
  have hgua : deriveGuaRaising (netAddress 0x20010db800000001#64) "b8:69:f4:1b:ea:7b".toList =
      .ok (some 0x20010db800000001ba69f4fffe1bea7b#128) := by decide
  have hgua' : deriveGuaRaising (netAddress 0x20010db800000001#64) "B8:69:F4:1B:EA:7B".toList =
      .ok (some 0x20010db800000001ba69f4fffe1bea7b#128) := by decide
  refine ⟨?_, (deriveGua_faithful.2.2.1 _ _ _ _ _ hgua hgua').2,
    deriveGua_faithful.2.2.2 _ _ (Or.inl (by decide)),
    deriveGua_faithful.2.2.2 _ _ (Or.inr ⟨"100".toList, by decide, fun n hn => ?_⟩)⟩
  · obtain ⟨a, ha, -, -, hmac⟩ := deriveGua_faithful.1 0x20010db800000001#64 _ _ _ _ _ _ _ hlower
    exact ⟨a, ha, hmac⟩
  · have hvalue : int16 "100".toList = some 256 := by decide
    obtain rfl := Option.some.inj (hvalue.symm.trans hn)
    exact Or.inr (by decide)

end V4WithV6Nh.Manager
