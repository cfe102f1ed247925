import Mathlib.Data.List.Infix
import V4WithV6Nh.LeaseScript
import V4WithV6Nh.NextHop

/-!
# The Neighbour Scan of the Lease Script

`find_nexthop` of `v4gw-lease.sh` reads the router's ND cache as text: it looks for the MAC in
every line that `ip` prints, and takes the address in front if its first characters are those
of a global, a unique local or a link-local address. The daemon reads the same cache as
numbers.

A line has the MAC in it if it is the entry's link-layer address, or if the address is one that
spells it: a MAC whose octets need no leading zeros can be written as six groups.

## Main results

* `classes_agree_iff`: the script and the daemon agree about an address exactly when its
  first group has four digits, or is not one of those that begin like a longer one.
* `mentions_neighLine`: the lines that the script looks at.
* `findNexthop_eq_bestNexthop`: where the derived GUA is not in use, both choose the same.
-/

namespace V4WithV6Nh.LeaseScript

/-! ### The scan -/

/-- `tr 'A-Z' 'a-z'`, and `tolower` in awk. -/
def lowered (t : Text) : Text := t.map Char.toLower

/-- `$1 ~ /^fe80:/` -/
def isLinkLocal (field : Text) : Bool := "fe80:".toList.isPrefixOf field

/-- `$1 ~ /^([23]|f[cd])/` -/
def isRoutable (field : Text) : Bool :=
  match field with
  | '2' :: _ | '3' :: _ | 'f' :: 'c' :: _ | 'f' :: 'd' :: _ => true
  | _ => false

/-- `index(tolower($0), m)`, which is zero for an empty `m`. -/
def mentions (m line : Text) : Bool := decide (m ≠ [] ∧ m <:+: lowered line)

/-- The variables of the awk program. -/
structure Scan where
  ll : Text
  gua : Text

/-- The awk program on one line. -/
def Scan.read (m : Text) (scan : Scan) (line : Text) : Scan :=
  if mentions m line then
    if isLinkLocal (field1 line) then
      if scan.ll = [] then { scan with ll := field1 line } else scan
    else if scan.gua = [] ∧ isRoutable (field1 line) = true then
      { scan with gua := field1 line }
    else scan
  else scan

/-- `find_nexthop`: what it prints, without the newline. -/
def findNexthop (mac : Text) (lines : List Text) : Text :=
  let scan := lines.foldl (Scan.read (lowered mac)) ⟨[], []⟩
  if scan.gua ≠ [] then scan.gua else scan.ll

/-- The first field of the first line with the MAC whose first field is as wanted. -/
def firstField (m : Text) (wanted : Text → Bool) (lines : List Text) : Text :=
  ((lines.find? fun line => mentions m line && wanted (field1 line)).map field1).getD []

section Scan

variable {m t : Text} {lines : List Text}

theorem not_isRoutable_of_isLinkLocal (h : isLinkLocal t = true) : isRoutable t = false := by
  obtain ⟨rest, rfl⟩ := List.isPrefixOf_iff_prefix.mp h
  rfl

theorem firstField_cons (wanted : Text → Bool) (line : Text) :
    firstField m wanted (line :: lines) =
      if mentions m line = true ∧ wanted (field1 line) = true then field1 line
      else firstField m wanted lines := by
  rw [firstField, List.find?_cons]
  cases hm : mentions m line <;> cases hw : wanted (field1 line) <;> simp [firstField]

/-- A scan keeps what it has, and takes what it finds first. -/
theorem foldl_read (scan : Scan) :
    lines.foldl (Scan.read m) scan =
      ⟨if scan.ll = [] then firstField m isLinkLocal lines else scan.ll,
        if scan.gua = [] then firstField m isRoutable lines else scan.gua⟩ := by
  induction lines generalizing scan with
  | nil =>
      obtain ⟨ll, gua⟩ := scan
      cases ll <;> cases gua <;> rfl
  | cons line lines ih =>
      rw [List.foldl_cons, ih, firstField_cons, firstField_cons, Scan.read]
      cases hm : mentions m line with
      | false => simp
      | true =>
          cases hl : isLinkLocal (field1 line) with
          | true =>
              -- a matched field is not empty
              have hne : field1 line ≠ [] := fun h => by
                rw [h] at hl
                cases hl
              have hr := not_isRoutable_of_isLinkLocal hl
              by_cases hll : scan.ll = [] <;> simp [hll, hne, hr]
          | false =>
              cases hr : isRoutable (field1 line) with
              | false => simp
              | true =>
                  have hne : field1 line ≠ [] := fun h => by
                    rw [h] at hr
                    cases hr
                  by_cases hgua : scan.gua = [] <;> simp [hgua, hne]

/-- **What `find_nexthop` prints**: the first routable address of the MAC, else the first
link-local one. -/
theorem findNexthop_eq (mac : Text) (lines : List Text) :
    findNexthop mac lines =
      if firstField (lowered mac) isRoutable lines ≠ [] then
        firstField (lowered mac) isRoutable lines
      else firstField (lowered mac) isLinkLocal lines := by
  rw [findNexthop, foldl_read]
  rfl

end Scan

/-! ### The classes of addresses -/

section Classes

variable {g : ℕ} {t : Text}

/-- A group of three digits or less that begins like the first one of a global or unique local
address. -/
def Lookalike (g : ℕ) : Prop :=
  g = 0x2 ∨ g = 0x3 ∨ (0x20 ≤ g ∧ g ≤ 0x3f) ∨ (0x200 ≤ g ∧ g ≤ 0x3ff) ∨
    g = 0xfc ∨ g = 0xfd ∨ (0xfc0 ≤ g ∧ g ≤ 0xfdf)

/-- At most two characters are looked at. -/
theorem isRoutable_append (t : Text) {c c' : Char} (rest : Text) :
    isRoutable (c :: c' :: t ++ rest) = isRoutable (c :: c' :: t) := by
  simp only [List.cons_append]
  unfold isRoutable
  split <;> simp_all

/-- The colon behind a group changes nothing. -/
theorem isRoutable_colon (t rest : Text) : isRoutable (t ++ ':' :: rest) = isRoutable t := by
  cases t with
  | nil => rfl
  | cons c t =>
      cases t with
      | cons c' t => exact isRoutable_append t _
      | nil =>
          simp only [List.cons_append, List.nil_append]
          unfold isRoutable
          split <;> simp_all

/-- A group of two digits or more. -/
theorem exists_hexText (h : 16 ≤ g) : ∃ c c' t, hexText g = c :: c' :: t := by
  have hdigits : hexText g = hexText (g / 16) ++ [Nat.digitChar (g % 16)] :=
    Nat.toDigits_of_base_le (by decide) h
  rw [hdigits]
  cases hhigh : hexText (g / 16) with
  | nil => exact absurd hhigh Nat.toDigits_ne_nil
  | cons c t =>
      cases t with
      | nil => exact ⟨c, _, [], rfl⟩
      | cons c' t => exact ⟨c, c', _, rfl⟩

/-- The third digit and those behind it are not looked at. -/
theorem isRoutable_hexText (h : 256 ≤ g) :
    isRoutable (hexText g) = isRoutable (hexText (g / 16)) := by
  have hdigits : hexText g = hexText (g / 16) ++ [Nat.digitChar (g % 16)] :=
    Nat.toDigits_of_base_le (by decide) (by omega)
  obtain ⟨c, c', t, ht⟩ := exists_hexText (g := g / 16) (by omega)
  rw [hdigits, ht]
  exact isRoutable_append t _

/-- Groups of one digit. -/
theorem isRoutable_digit : ∀ d < 16, isRoutable (hexText d) = decide (d = 0x2 ∨ d = 0x3) := by
  decide

/-- Groups of two digits. -/
theorem isRoutable_digits : ∀ h < 16, ∀ l < 16,
    isRoutable [Nat.digitChar h, Nat.digitChar l] =
      decide (h = 0x2 ∨ h = 0x3 ∨ h = 0xf ∧ (l = 0xc ∨ l = 0xd)) := by decide

theorem isRoutable_byte (hle : 16 ≤ g) (hlt : g < 256) : isRoutable (hexText g) =
    decide ((0x20 ≤ g ∧ g ≤ 0x3f) ∨ g = 0xfc ∨ g = 0xfd) := by
  rw [hexText_byte hle hlt, isRoutable_digits _ (by omega) _ (by omega)]
  exact decide_eq_decide.mpr (by omega)

/-- A group of three digits or less begins like a longer one exactly if it is a lookalike. -/
theorem isRoutable_short (h : g < 0x1000) : isRoutable (hexText g) = true ↔ Lookalike g := by
  by_cases hdigit : g < 16
  · rw [isRoutable_digit g hdigit, decide_eq_true_iff, Lookalike]
    omega
  by_cases hbyte : g < 256
  · rw [isRoutable_byte (by omega) hbyte, decide_eq_true_iff, Lookalike]
    omega
  · rw [isRoutable_hexText (by omega), isRoutable_byte (by omega) (by omega), decide_eq_true_iff,
      Lookalike]
    omega

/-- A group of four digits has the first octet in front. -/
theorem isRoutable_long (hle : 0x1000 ≤ g) (hlt : g < 0x10000) : isRoutable (hexText g) =
    decide ((0x20 ≤ g / 256 ∧ g / 256 ≤ 0x3f) ∨ g / 256 = 0xfc ∨ g / 256 = 0xfd) := by
  rw [isRoutable_hexText (by omega), isRoutable_hexText (by omega), Nat.div_div_eq_div_mul]
  exact isRoutable_byte (by omega) (by omega)

/-- The first group of an address. -/
def firstGroup (a : IPv6) : ℕ := (a.extractLsb' 112 16).toNat

theorem firstGroup_lt (a : IPv6) : firstGroup a < 0x10000 := (a.extractLsb' 112 16).isLt

theorem firstGroup_eq (a : IPv6) : (a >>> 112).toNat = firstGroup a := by
  have hlt := a.isLt
  rw [firstGroup, BitVec.extractLsb'_toNat, BitVec.toNat_ushiftRight, Nat.shiftRight_eq_div_pow,
    Nat.mod_eq_of_lt (by omega)]

theorem firstOctet_eq (a : IPv6) : (a >>> 120).toNat = firstGroup a / 256 := by
  rw [← firstGroup_eq, BitVec.toNat_ushiftRight, BitVec.toNat_ushiftRight,
    Nat.shiftRight_eq_div_pow, Nat.shiftRight_eq_div_pow, Nat.div_div_eq_div_mul]

theorem isGlobalOrUla_iff (a : IPv6) : Manager.isGlobalOrUla a = decide
    ((0x20 ≤ firstGroup a / 256 ∧ firstGroup a / 256 ≤ 0x3f) ∨ firstGroup a / 256 = 0xfc ∨
      firstGroup a / 256 = 0xfd) := by
  rw [Manager.isGlobalOrUla, firstOctet_eq, Bool.eq_iff_iff]
  simp [or_assoc]

/-- The awk program looks at the first group. -/
theorem isRoutable_compressed (a : IPv6) :
    isRoutable (compressed a) = isRoutable (hexText (firstGroup a)) := by
  rcases compressed_cases a with ⟨hzero, rest, htext⟩ | ⟨rest, htext⟩
  · rw [htext, firstGroup, hzero]
    rfl
  · rw [htext]
    exact isRoutable_colon _ _

/-- **The script and the daemon agree about an address** exactly when its first group does not
begin like a longer one. -/
theorem isRoutable_compressed_iff (a : IPv6) :
    isRoutable (compressed a) = Manager.isGlobalOrUla a ↔ ¬ Lookalike (firstGroup a) := by
  rw [isRoutable_compressed, isGlobalOrUla_iff]
  have hlt := firstGroup_lt a
  by_cases hlong : 0x1000 ≤ firstGroup a
  · rw [isRoutable_long hlong hlt, Lookalike]
    exact iff_of_true rfl (by omega)
  · rw [← isRoutable_short (by omega), Bool.not_eq_true, decide_eq_false (by omega)]

/-- About link-local addresses they always agree. -/
theorem isLinkLocal_compressed (a : IPv6) :
    isLinkLocal (compressed a) = Manager.startsWithFe80 a := by
  rw [Manager.startsWithFe80, firstGroup_eq, Bool.eq_iff_iff, beq_iff_eq, isLinkLocal,
    List.isPrefixOf_iff_prefix]
  have hfe80 : hexText 0xfe80 = "fe80".toList := by decide
  rcases compressed_cases a with ⟨hzero, rest, htext⟩ | ⟨rest, htext⟩
  · rw [htext, firstGroup, hzero]
    exact iff_of_false (fun ⟨t, ht⟩ => by cases ht) (by decide)
  · have hdigits : hexText (a.extractLsb' 112 16).toNat = hexText (firstGroup a) := rfl
    rw [htext, hdigits]
    constructor
    · rintro ⟨t, ht⟩
      -- both are read up to the first colon
      have hbefore := congrArg beforeFirst ht
      rw [show "fe80:".toList ++ t = "fe80".toList ++ ':' :: t from rfl,
        beforeFirst_append (by decide), beforeFirst_append fun h => ?_, ← hfe80] at hbefore
      · have hscan := scanDigits_hexText (firstGroup a)
        rw [← hbefore, scanDigits_hexText] at hscan
        exact (Prod.mk.inj hscan).1.symm
      · obtain ⟨d, hd, hcolon⟩ := exists_of_mem_hexText h
        revert d
        decide
    · intro h
      rw [h, hfe80]
      exact ⟨rest, rfl⟩

/-- **The script and the daemon sort an address alike**, the one by its text and the other by its
number, exactly when its first group is no lookalike. -/
theorem classes_agree_iff (a : IPv6) :
    (isRoutable (compressed a) = Manager.isGlobalOrUla a ∧
        isLinkLocal (compressed a) = Manager.startsWithFe80 a) ↔ ¬ Lookalike (firstGroup a) := by
  rw [isRoutable_compressed_iff, and_iff_left (isLinkLocal_compressed a)]

end Classes

/-! ### The lines of the cache -/

/-- The text of an ethernet address, in lower case. -/
structure IsEther (t : Text) : Prop where
  length : t.length = 17
  colon : ':' ∈ t
  blank : ' ' ∉ t
  lower : lowered t = t

/-- The line that `ip -6 neigh show dev` prints of an entry; the flags and the NUD state come
last. -/
def neighLine (dst : IPv6) (lladdr : Option Text) (flags : Text) : Text :=
  match lladdr with
  | some l => compressed dst ++ ' ' :: ("lladdr".toList ++ ' ' :: (l ++ ' ' :: flags))
  | none => compressed dst ++ ' ' :: flags

section Lines

variable {m l t flags : Text} {dst : IPv6} {lladdr : Option Text}

theorem lowered_append (t t' : Text) : lowered (t ++ t') = lowered t ++ lowered t' :=
  List.map_append

theorem lowered_blank (t : Text) : lowered (' ' :: t) = ' ' :: lowered t := rfl

theorem lowered_compressed (a : IPv6) : lowered (compressed a) = compressed a := by
  have hdigit : ∀ d < 16, (Nat.digitChar d).toLower = Nat.digitChar d := by decide
  refine List.map_congr_left (g := id) (fun c hc => ?_) |>.trans (List.map_id _)
  rcases exists_of_mem_compressed hc with rfl | ⟨d, hd, rfl⟩
  · rfl
  · exact hdigit d hd

/-- No character becomes a colon. -/
theorem colon_of_mem_lowered (h : ':' ∈ lowered t) : ':' ∈ t := by
  obtain ⟨c, hc, hcolon⟩ := List.mem_map.mp h
  have hnat := congrArg Char.toNat hcolon
  rw [toNat_toLower] at hnat
  have h58 : ':'.toNat = 58 := rfl
  obtain rfl : c = ':' := Char.toNat_inj.mp (by split_ifs at hnat <;> omega)
  exact hc

theorem not_infix_of_colon (hm : ':' ∈ m) (ht : ':' ∉ t) : ¬ m <:+: lowered t :=
  fun h => ht (colon_of_mem_lowered (h.subset hm))

/-- An address is one field. -/
theorem isWord_compressed (a : IPv6) :
    IsWord (fun c => c == ' ' || c == '\t') (compressed a) := by
  have hdigit : ∀ d < 16, (Nat.digitChar d == ' ' || Nat.digitChar d == '\t') = false := by
    decide
  refine ⟨fun h => ?_, fun c hc => ?_⟩
  · rcases compressed_cases a with ⟨-, rest, htext⟩ | ⟨rest, htext⟩
    · exact absurd (htext.symm.trans h) (List.cons_ne_nil _ _)
    · exact absurd (htext.symm.trans h)
        (List.append_ne_nil_of_right_ne_nil _ (List.cons_ne_nil _ _))
  · rcases exists_of_mem_compressed hc with rfl | ⟨d, hd, rfl⟩
    · rfl
    · exact hdigit d hd

theorem field1_neighLine : field1 (neighLine dst lladdr flags) = compressed dst := by
  cases lladdr <;> rw [field1, neighLine, tokens_cons (isWord_compressed dst) rfl] <;> rfl

/-- **Which lines have the MAC in them**: those of its entries, and those of the addresses that
spell it. -/
theorem mentions_neighLine (hm : IsEther m) (hlladdr : ∀ l, lladdr = some l → IsEther l)
    (hflags : ':' ∉ flags) :
    mentions m (neighLine dst lladdr flags) = true ↔ lladdr = some m ∨ m <:+: compressed dst := by
  have hne : m ≠ [] := List.ne_nil_of_mem hm.colon
  rw [mentions, decide_eq_true_iff, and_iff_right hne]
  cases lladdr with
  | none =>
      rw [neighLine, lowered_append, lowered_compressed, lowered_blank,
        infix_append_cons_iff hm.blank]
      exact ⟨fun h => .inr (h.resolve_right (not_infix_of_colon hm.colon hflags)),
        fun h => .inl (h.resolve_left nofun)⟩
  | some l =>
      have hl := hlladdr l rfl
      have hword : ¬ m <:+: lowered "lladdr".toList := not_infix_of_colon hm.colon (by decide)
      have hrest := not_infix_of_colon hm.colon hflags
      have hsame : m <:+: l ↔ some l = some m := by
        rw [Option.some_inj]
        exact ⟨fun h => (h.eq_of_length (hm.length.trans hl.length.symm)).symm,
          fun h => h ▸ List.infix_refl _⟩
      rw [neighLine, lowered_append, lowered_compressed, lowered_blank,
        infix_append_cons_iff hm.blank, lowered_append, lowered_blank,
        infix_append_cons_iff hm.blank, lowered_append, lowered_blank,
        infix_append_cons_iff hm.blank, hl.lower, hsame]
      simp only [hword, hrest, false_or, or_comm]

end Lines

/-! ### The script and the daemon -/

section Agreement

open Manager

variable [UnicodeTables] {env : Env} {idx : ℕ} {mac : Text} {lines : List Text} {n : Neigh6}
  {rows : List Neigh6}

/-- A row of the ND dump and the line that `ip` prints of it. -/
def Prints (n : Neigh6) (line : Text) : Prop :=
  ∃ dst flags, n.dst = some dst ∧ ':' ∉ flags ∧ (∀ l, n.lladdr = some l → IsEther l) ∧
    line = neighLine dst n.lladdr flags

/-- What an address needs for the script to take it as the daemon does: it does not spell the
MAC, and its first group does not begin like a longer one. -/
structure Plain (mac : Text) (a : IPv6) : Prop where
  unspelled : ¬ mac <:+: compressed a
  group : ¬ Lookalike (firstGroup a)

/-- `str.lower` leaves a MAC that is in lower case. -/
abbrev LowerEther : Prop := ∀ t, IsEther t → UnicodeTables.lower t = t

/-- A row of the dump is an entry of the cache exactly if its line has the MAC in it. -/
theorem cacheRow_of_prints (hlower : LowerEther) (hmac : IsEther mac) {line : Text}
    (hprints : Prints n line) (hplain : ∀ a, n.dst = some a → Plain mac a) :
    ∃ dst, field1 line = compressed dst ∧ isRoutable (compressed dst) = isGlobalOrUla dst ∧
      (mentions mac line = true → n.lladdr = some mac) ∧
      cacheRow mac n = if mentions mac line = true then some (dst, n.state) else none := by
  obtain ⟨dst, flags, hdst, hflags, hether, rfl⟩ := hprints
  have hdstPlain := hplain dst hdst
  have hmentions : mentions mac (neighLine dst n.lladdr flags) = true ↔
      n.lladdr = some mac ∨ mac <:+: compressed dst := mentions_neighLine hmac hether hflags
  rw [or_iff_left hdstPlain.unspelled] at hmentions
  refine ⟨dst, field1_neighLine, (isRoutable_compressed_iff dst).mpr hdstPlain.group,
    hmentions.mp, ?_⟩
  rw [cacheRow, hdst]
  cases hlladdr : n.lladdr with
  | none =>
      rw [hlladdr] at hmentions
      simp [hmentions]
  | some l =>
      have hl := hether l hlladdr
      rw [hlladdr] at hmentions
      simp [hmentions, hlower l hl, List.ne_nil_of_mem hl.colon]

/-- The first line that is wanted is that of the first wanted entry. -/
theorem firstField_eq (hlower : LowerEther) (hmac : IsEther mac)
    (hprints : List.Forall₂ Prints rows lines)
    (hplain : ∀ n ∈ rows, ∀ a, n.dst = some a → Plain mac a)
    (husable : ∀ n ∈ rows, n.lladdr = some mac → nudUsable n.state = true)
    {wanted : Text → Bool} {q : IPv6 → Bool}
    (hwanted : ∀ a, isRoutable (compressed a) = isGlobalOrUla a → wanted (compressed a) = q a) :
    firstField mac wanted lines =
      ((((rows.filterMap (cacheRow mac)).find? fun e => nudUsable e.2 && q e.1).map Prod.fst).map
        compressed).getD [] := by
  induction hprints with
  | nil => rfl
  | @cons n line rows lines hprint _ ih =>
      obtain ⟨hn, hrows⟩ := List.forall_mem_cons.mp hplain
      obtain ⟨hstate, hstates⟩ := List.forall_mem_cons.mp husable
      obtain ⟨dst, hfield, hclass, hlladdr, hrow⟩ := cacheRow_of_prints hlower hmac hprint hn
      rw [firstField_cons, hfield, hwanted dst hclass, ih hrows hstates]
      cases hm : mentions mac line with
      | false =>
          rw [hm] at hrow
          rw [List.filterMap_cons_none hrow]
          simp
      | true =>
          rw [hm] at hrow
          rw [List.filterMap_cons_some hrow, List.find?_cons, hstate (hlladdr hm)]
          cases q dst <;> simp

/-- The script and the daemon see the same cache: `lines` are the rows of the dump, the entries
of the MAC can be used, and no address looks like what it is not. -/
structure SameView (env : Env) (idx : ℕ) (mac : Text) (lines : List Text) : Prop where
  ether : IsEther mac
  unique : UniqueRows env idx
  prints : List.Forall₂ Prints (env.neigh6.filter fun n => decide (n.ifindex = idx)) lines
  plain : ∀ n ∈ env.neigh6, n.ifindex = idx → ∀ a, n.dst = some a → Plain mac a
  usable : ∀ n ∈ env.neigh6, n.ifindex = idx → n.lladdr = some mac → nudUsable n.state = true

/-- What a pass of the daemon over its cache finds is what the script finds in the lines. -/
theorem firstField_eq_find? (hlower : LowerEther) (hview : SameView env idx mac lines)
    (hneigh : env.fault (.getNeighbours mac) = none) {wanted : Text → Bool} {q : IPv6 → Bool}
    (hwanted : ∀ a, isRoutable (compressed a) = isGlobalOrUla a → wanted (compressed a) = q a) :
    firstField mac wanted lines =
      ((((cache env idx mac).entries.find? fun e => nudUsable e.2 && q e.1).map Prod.fst).map
        compressed).getD [] := by
  have hrows : ∀ n ∈ env.neigh6.filter (fun n => decide (n.ifindex = idx)),
      n ∈ env.neigh6 ∧ n.ifindex = idx := fun n hn => by simpa using List.mem_filter.mp hn
  rw [entries_cache hneigh hview.unique]
  exact firstField_eq hlower hview.ether hview.prints
    (fun n hn => hview.plain n (hrows n hn).1 (hrows n hn).2)
    (fun n hn => hview.usable n (hrows n hn).1 (hrows n hn).2) hwanted

/-- **The script falls back on the address that the daemon falls back on**: if the derived GUA
is not in use, `find_nexthop` prints the next hop of `best_nexthop`. -/
theorem findNexthop_eq_bestNexthop (hlower : LowerEther) (hview : SameView env idx mac lines)
    (hroutes : env.fault (.getRoutes mac) = none)
    (hneigh : env.fault (.getNeighbours mac) = none)
    (hgua : ∀ g, derivedGua env idx mac = some g → ¬ Candidate env idx mac g) :
    ∃ nh, bestNexthop env idx mac = .ok (nh, derivedGua env idx mac) ∧
      findNexthop mac lines = (nh.map compressed).getD [] := by
  have hglobal := firstField_eq_find? hlower hview hneigh fun _ h => h
  have hlocal := firstField_eq_find? hlower hview hneigh fun a _ => isLinkLocal_compressed a
  have hunused : (derivedGua env idx mac).filter
      (fun g => nudUsable (((cache env idx mac).get g).getD 0)) = none :=
    Option.filter_eq_none_iff.mpr fun g hg =>
      mt (usable_get_iff hneigh hview.unique).mp (hgua g hg)
  rw [findNexthop_eq, hview.ether.lower, hglobal, hlocal]
  simp only [bestNexthop, hroutes]
  rw [show ((prefixOf env idx).bind fun net => deriveGua net mac) = derivedGua env idx mac
    from rfl, hunused]
  have hne : ∀ a, compressed a ≠ [] := fun a => (isWord_compressed a).1
  cases hg : ((cache env idx mac).entries.find? fun e =>
      nudUsable e.2 && isGlobalOrUla e.1).map Prod.fst with
  | some a => exact ⟨some a, rfl, if_pos (hne a)⟩
  | none =>
      refine ⟨_, ?_, if_neg (not_not.mpr rfl)⟩
      cases ((cache env idx mac).entries.find? fun e =>
          nudUsable e.2 && startsWithFe80 e.1).map Prod.fst <;> rfl

end Agreement

/-! ### The next hop -/

/-- `$(…)`: the output without its last newlines. -/
def substituted (output : Text) : Text := output.rdropWhile fun c => c == '\n'

/-- `nh`: `neigh` and `probed` are the lines of the ND cache before and after the `ping`. -/
def nexthop (router : Router) (mac : Text) (neigh probed : List Text) : Text :=
  let nh := substituted (guaNexthop router mac)
  let nh := if nh = [] then findNexthop mac neigh else nh
  if nh = [] then findNexthop mac probed else nh

section NextHop

open Manager

variable {router : Router} {mac gua : Text} {neigh : List Text}

/-- The newline that `printf` adds is taken off again. -/
theorem substituted_octet (t : Text) (o : Octet) :
    substituted (t ++ o.text ++ ['\n']) = t ++ o.text := by
  have hdigit : (o.low.char == '\n') = false := beq_eq_false_iff_ne.mpr fun h => by
    have hnone : digitValue 16 '\n' = none := by decide
    cases hnone.symm.trans (h ▸ o.low.digit)
  have htext : t ++ o.text = t ++ [o.high.char] ++ [o.low.char] := by
    rw [List.append_assoc]
    rfl
  rw [substituted, List.rdropWhile_concat_pos _ _ _ rfl, htext]
  exact List.rdropWhile_concat_neg _ _ _ (by simp [hdigit])

/-- A derived GUA that is answered is the next hop. -/
theorem nexthop_of_answer {t : Text} {o : Octet} (hbuilt : builtGua router mac = some (t ++ o.text))
    (hanswer : router.answers (t ++ o.text) = true) (probed : List Text) :
    nexthop router mac neigh probed = t ++ o.text := by
  have hne : t ++ o.text ≠ [] := List.append_ne_nil_of_right_ne_nil t (List.cons_ne_nil _ _)
  have hprinted : guaNexthop router mac = t ++ o.text ++ ['\n'] := by
    rw [guaNexthop, hbuilt]
    exact if_pos hanswer
  rw [nexthop, hprinted, substituted_octet]
  simp only [if_neg hne]

/-- Without an answer it is one of the ND cache. -/
theorem nexthop_of_no_answer (hbuilt : builtGua router mac = some gua)
    (hanswer : router.answers gua = false) (probed : List Text) :
    nexthop router mac neigh probed =
      if findNexthop mac neigh = [] then findNexthop mac probed else findNexthop mac neigh := by
  have hprinted : guaNexthop router mac = [] := by
    rw [guaNexthop, hbuilt]
    simp only [hanswer]
    rfl
  rw [nexthop, hprinted]
  simp only [substituted, List.rdropWhile_nil, if_true]

variable [UnicodeTables] {env : Env} {idx : ℕ} {net : Net64} {o1 o2 o3 o4 o5 o6 : Octet}

/-- The router that the daemon sees, as the script sees it: it advertises `net`, and `ndisc6`
gets an answer exactly if the cache has the derived GUA in a usable state. -/
structure SameRouter (env : Env) (idx : ℕ) (mac : Text) (net : Net64) (router : Router) :
    Prop where
  advertises : prefixOf env idx = some net.addr
  ndisc6 : router.ndisc6 = true
  routes : ∃ before rest after, router.routes = before ++ routeLine net rest :: after ∧
    ∀ line ∈ before, isAdvertised (field1 line) = false
  answers : ∀ t g, parseIPv6 t = some g → derivedGua env idx mac = some g →
    (router.answers t = true ↔ Candidate env idx mac g)

/-- The text that the script pastes ends in an octet. If the prefix has no fourth group, it denotes
the derived GUA. -/
theorem exists_builtGua
    (hrouter : SameRouter env idx (macText [o1, o2, o3, o4, o5, o6]) net router)
    (hfourth : net.addr.extractLsb' 64 16 = 0) :
    ∃ t g, builtGua router (macText [o1, o2, o3, o4, o5, o6]) = some (t ++ o6.text) ∧
      parseIPv6 (t ++ o6.text) = some g ∧
      derivedGua env idx (macText [o1, o2, o3, o4, o5, o6]) = some g := by
  obtain ⟨ndisc6, routes, answers⟩ := router
  obtain ⟨before, rest, after, hsplit, hbefore⟩ := hrouter.routes
  obtain rfl : ndisc6 = true := hrouter.ndisc6
  obtain rfl : routes = _ := hsplit
  have hbuilt : builtGua ⟨true, before ++ routeLine net rest :: after, answers⟩
      (macText [o1, o2, o3, o4, o5, o6]) = _ := builtGua_eq hbefore o1 o2 o3 o4 o5 o6
  have hparse := parseIPv6_pasted net o1 o2 o3 o4 o5 o6
  have hderived := deriveGua_macText net.addr o1 o2 o3 o4 o5 o6
  obtain ⟨t, ht⟩ : ∃ t, joined ((significant net.head).map fun g => hexText g.toNat) ++
      ':' :: ':' :: joined [(flippedOctet o1).text ++ o2.text, o3.text ++ ['f', 'f'],
        ['f', 'e'] ++ o4.text, o5.text ++ o6.text] = t ++ o6.text := by
    refine ⟨joined ((significant net.head).map fun g => hexText g.toNat) ++ ':' :: ':' ::
      joined [(flippedOctet o1).text ++ o2.text, o3.text ++ ['f', 'f'], ['f', 'e'] ++ o4.text,
        o5.text], ?_⟩
    simp [joined, List.intercalate]
  rw [if_pos hfourth] at hparse
  rw [ht] at hbuilt hparse
  refine ⟨t, _, hbuilt, hparse.trans hderived, ?_⟩
  rw [derivedGua, hrouter.advertises]
  exact hderived

end NextHop

/-- The MAC of a host. -/
def hostMac : Text := "02:11:22:33:44:55".toList

/-- The router of the testbed, which knows a link-local and a global address of the host. -/
def twoAddresses : Manager.Env where
  links := [⟨"eth0".toList, 3, 1⟩]
  routes6 := [⟨64, some testbed.addr, some 3, none, none, []⟩]
  neigh6 := [⟨3, some 0xfe800000000000000000000000000001#128, some hostMac, 2⟩,
    ⟨3, some 0x20010db80000000000000000000000aa#128, some hostMac, 4⟩]
  fault := fun _ => none
  monotonic := fun _ => 0
  stateWriteFails := false

/-- What its tools print. -/
def twoLines : List Text :=
  [neighLine 0xfe800000000000000000000000000001#128 (some hostMac) "REACHABLE".toList,
    neighLine 0x20010db80000000000000000000000aa#128 (some hostMac) "STALE".toList]

/-- The host does not use its derived GUA. -/
def testbedRouter : Router :=
  ⟨true, [routeLine testbed "proto kernel metric 256 pref medium".toList], fun _ => false⟩

theorem twoAddresses_view : SameView twoAddresses 3 hostMac twoLines where
  ether := ⟨by decide, by decide, by decide, by decide⟩
  unique := by
    unfold Manager.UniqueRows
    decide
  prints := .cons ⟨_, _, rfl, by decide, fun l hl => Option.some.inj hl ▸
      ⟨by decide, by decide, by decide, by decide⟩, rfl⟩
    (.cons ⟨_, _, rfl, by decide, fun l hl => Option.some.inj hl ▸
      ⟨by decide, by decide, by decide, by decide⟩, rfl⟩ .nil)
  plain := by
    have hgroup : ∀ g ∈ [0xfe80, 0x2001], ¬ Lookalike g := by
      unfold Lookalike
      decide
    intro n hn _ a ha
    rcases List.mem_cons.mp hn with rfl | hn
    · obtain rfl := Option.some.inj ha
      exact ⟨by decide, hgroup 0xfe80 (by decide)⟩
    · obtain rfl := List.mem_singleton.mp hn
      obtain rfl := Option.some.inj ha
      exact ⟨by decide, hgroup 0x2001 (by decide)⟩
  usable := by decide

end V4WithV6Nh.LeaseScript
