import Mathlib.Data.List.MinMax
import V4WithV6Nh.CText
import V4WithV6Nh.Linux

/-!
# The Text of an IPv6 Address

The text representation of RFC 4291: up to eight groups of one to four digits, where a `::`
stands for one or more groups of zeros and the last two groups may be written as a dotted
quad. `parseIPv6` reads it.

`compressed` is what `inet_ntop` prints: the groups in lower case without leading zeros, and
the first of the longest runs of two or more zero groups as `::`. The dotted quads that it
prints for some addresses with eighty leading zeros are left out.

* `parseIPv6_double`: a text of groups with a `::` between them denotes an address exactly
  when the `::` has a group to stand for.
* `compressed_network`: the text of a /64 ends in `::` and has the groups up to the last
  that is not zero.
* `parseIPv6_compressed`: what is printed is read back.
-/

namespace V4WithV6Nh

/-- One of the eight parts of an address. -/
abbrev Group := BitVec 16

/-- The parts of an address. -/
def groups (addr : IPv6) : List Group :=
  [addr.extractLsb' 112 16, addr.extractLsb' 96 16, addr.extractLsb' 80 16,
    addr.extractLsb' 64 16, addr.extractLsb' 48 16, addr.extractLsb' 32 16,
    addr.extractLsb' 16 16, addr.extractLsb' 0 16]

/-- The address of eight parts. -/
def ofGroups : List Group → Option IPv6
  | [g0, g1, g2, g3, g4, g5, g6, g7] => some ((g0 ++ g1 ++ g2 ++ g3) ++ (g4 ++ g5 ++ g6 ++ g7))
  | _ => none

/-! ### Reading -/

/-- One to four digits. -/
def parseGroup (t : Text) : Option Group :=
  if t ≠ [] ∧ t.length ≤ 4 then
    match scanDigits 16 t 0 with
    | (n, []) => some (BitVec.ofNat 16 n)
    | _ => none
  else none

/-- One to three decimal digits, below 256. -/
def parseDecimal (t : Text) : Option (BitVec 8) :=
  if t ≠ [] ∧ t.length ≤ 3 then
    match scanDigits 10 t 0 with
    | (n, []) => if n < 256 then some (BitVec.ofNat 8 n) else none
    | _ => none
  else none

/-- A dotted quad, which stands for two groups. -/
def parseQuad (t : Text) : Option (List Group) :=
  match (t.splitOn '.').mapM parseDecimal with
  | some [a, b, c, d] => some [a ++ b, c ++ d]
  | _ => none

/-- Groups, the last of which may be a dotted quad if `quad` says so. -/
def parseGroups (quad : Bool) : List Text → Option (List Group)
  | [] => some []
  | t :: ts =>
      match parseGroup t with
      | some g => (parseGroups quad ts).map (g :: ·)
      | none => if quad ∧ ts = [] then parseQuad t else none

/-- Groups with a colon between them, or none. -/
def parseSide (quad : Bool) (t : Text) : Option (List Group) :=
  if t = [] then some [] else parseGroups quad (t.splitOn ':')

/-- The two sides of the first double colon. -/
def splitDouble : Text → Option (Text × Text)
  | [] => none
  | c :: cs =>
      match c, cs with
      | ':', ':' :: rest => some ([], rest)
      | c, cs => (splitDouble cs).map fun sides => (c :: sides.1, sides.2)

/-- The address that a text denotes. -/
def parseIPv6 (t : Text) : Option IPv6 :=
  match splitDouble t with
  | none => (parseSide true t).bind ofGroups
  | some (left, right) =>
      match parseSide false left, parseSide true right with
      | some l, some r =>
          if l.length + r.length < 8 then
            ofGroups (l ++ List.replicate (8 - (l.length + r.length)) 0 ++ r)
          else none
      | _, _ => none

example : parseIPv6 "2001:db8::ff00:42:8329".toList =
    some 0x20010db8000000000000ff0000428329#128 := by decide

example : parseIPv6 "::ffff:192.0.2.1".toList = some 0xffffc0000201#128 := by decide

example : parseIPv6 "1:2:3:4::5:6:7:8".toList = none := by decide

/-! ### Printing -/

/-- Pieces with a colon between them. -/
def joined (ts : List Text) : Text := [':'].intercalate ts

/-- `%x` -/
def hexText (n : ℕ) : Text := Nat.toDigits 16 n

/-- The first of the longest runs: where it begins and how long it is. -/
def longestRun (zero : List Bool) : Option (ℕ × ℕ) :=
  let run (i : ℕ) : ℕ := ((zero.drop i).takeWhile id).length
  ((List.range zero.length).argmax run).map fun i => (i, run i)

/-- The text of an address, as `inet_ntop` prints it. -/
def compressed (addr : IPv6) : Text :=
  let ts := (groups addr).map fun g => hexText g.toNat
  match longestRun ((groups addr).map fun g => decide (g = 0)) with
  | some (i, n) =>
      if 2 ≤ n then joined (ts.take i) ++ ':' :: ':' :: joined (ts.drop (i + n)) else joined ts
  | none => joined ts

example : compressed 0x20010db8000000000001000000000001#128 =
    "2001:db8::1:0:0:1".toList := by decide

/-! ### Groups and colons -/

section Sides

variable {ts ts' : List Text} {gs gs' : List Group} {t rest : Text} {quad : Bool}

/-- The texts are those of the groups. -/
abbrev Spells (ts : List Text) (gs : List Group) : Prop :=
  List.Forall₂ (fun t g => parseGroup t = some g) ts gs

theorem joined_cons_cons (t t' : Text) (ts : List Text) :
    joined (t :: t' :: ts) = t ++ ':' :: joined (t' :: ts) := by
  simp [joined, List.intercalate]

/-- A number that is read to the end has digits only. -/
theorem isDigit_of_scanDigits {base n m : ℕ} (h : scanDigits base t n = (m, [])) :
    ∀ c ∈ t, digitValue base c ≠ none := by
  induction t generalizing n with
  | nil => exact fun c hc => by cases hc
  | cons c cs ih =>
      rw [scanDigits] at h
      cases hd : digitValue base c with
      | none =>
          rw [hd] at h
          cases h
      | some d =>
          rw [hd] at h
          refine List.forall_mem_cons.mpr ⟨?_, ih h⟩
          rw [hd]
          exact Option.some_ne_none d

/-- A group is not empty and has no colon. -/
theorem word_of_parseGroup {g : Group} (h : parseGroup t = some g) : t ≠ [] ∧ ':' ∉ t := by
  rw [parseGroup] at h
  split at h
  · rename_i hlength
    refine ⟨hlength.1, fun hcolon => ?_⟩
    split at h
    · rename_i hscan
      exact isDigit_of_scanDigits hscan ':' hcolon (by decide)
    · cases h
  · cases h

theorem Spells.words (h : Spells ts gs) : ∀ t ∈ ts, t ≠ [] ∧ ':' ∉ t := by
  induction h with
  | nil => exact fun t ht => by cases ht
  | cons hg _ ih => exact List.forall_mem_cons.mpr ⟨word_of_parseGroup hg, ih⟩

/-- Groups are read as such. -/
theorem parseGroups_of_spells (h : Spells ts gs) : parseGroups quad ts = some gs := by
  induction h with
  | nil => rfl
  | cons hg _ ih =>
      rw [parseGroups, hg, ih]
      rfl

/-- Pieces with a colon between them are not empty. -/
theorem joined_ne_nil (ht : t ≠ []) (ts : List Text) : joined (t :: ts) ≠ [] := by
  cases ts with
  | nil => simpa [joined, List.intercalate] using ht
  | cons t' ts =>
      rw [joined_cons_cons]
      exact List.append_ne_nil_of_right_ne_nil t (List.cons_ne_nil _ _)

/-- The groups on one side of the double colon are read. -/
theorem parseSide_joined (h : Spells ts gs) : parseSide quad (joined ts) = some gs := by
  have hwords := h.words
  cases ts with
  | nil =>
      cases h
      rfl
  | cons t ts =>
      rw [parseSide, if_neg (joined_ne_nil (hwords t List.mem_cons_self).1 ts), joined,
        List.splitOn_intercalate ':' (fun l hl => (hwords l hl).2) (List.cons_ne_nil t ts)]
      exact parseGroups_of_spells h

/-- A double colon is not looked for in a piece without colons. -/
theorem splitDouble_append (ht : ':' ∉ t) (rest : Text) :
    splitDouble (t ++ rest) =
      (splitDouble rest).map fun sides => (t ++ sides.1, sides.2) := by
  induction t with
  | nil => simp
  | cons c cs ih =>
      obtain ⟨hc, hcs⟩ := not_or.mp (List.mem_cons.not.mp ht)
      rw [List.cons_append, splitDouble, ih hcs, Option.map_map]
      · rfl
      · rintro rest rfl
        exact absurd rfl hc

/-- A single colon is passed over. -/
theorem splitDouble_colon {c : Char} (hc : c ≠ ':') (cs : Text) :
    splitDouble (':' :: c :: cs) =
      (splitDouble (c :: cs)).map fun sides => (':' :: sides.1, sides.2) := by
  rw [splitDouble]
  rintro rest - h
  exact hc (List.cons.inj h).1

/-- **The first double colon** comes behind the pieces. -/
theorem splitDouble_joined (h : ∀ t ∈ ts, t ≠ [] ∧ ':' ∉ t) (rest : Text) :
    splitDouble (joined ts ++ ':' :: ':' :: rest) = some (joined ts, rest) := by
  induction ts with
  | nil => rfl
  | cons t ts ih =>
      obtain ⟨⟨-, ht⟩, hts⟩ := List.forall_mem_cons.mp h
      cases ts with
      | nil =>
          have hone : joined [t] = t := by simp [joined, List.intercalate]
          rw [hone, splitDouble_append ht]
          simp [splitDouble]
      | cons t' ts =>
          rw [joined_cons_cons, List.append_assoc, splitDouble_append ht, List.cons_append]
          have hword := hts t' List.mem_cons_self
          -- the piece behind the colon begins with another character
          have hhead : ∃ c cs, joined (t' :: ts) ++ ':' :: ':' :: rest = c :: cs ∧ c ≠ ':' := by
            cases t' with
            | nil => exact absurd rfl hword.1
            | cons c cs =>
                refine ⟨c, ?_⟩
                cases ts with
                | nil => exact ⟨_, rfl, fun hc => hword.2 (hc ▸ List.mem_cons_self)⟩
                | cons t'' ts =>
                    rw [joined_cons_cons]
                    exact ⟨_, rfl, fun hc => hword.2 (hc ▸ List.mem_cons_self)⟩
          obtain ⟨c, cs, heq, hc⟩ := hhead
          have hih := ih hts
          rw [heq] at hih ⊢
          rw [splitDouble_colon hc, hih]
          rfl

/-- **A text with a double colon between its groups** denotes an address exactly when the
double colon has a group to stand for. -/
theorem parseIPv6_double (h : Spells ts gs) (h' : Spells ts' gs') :
    parseIPv6 (joined ts ++ ':' :: ':' :: joined ts') =
      if gs.length + gs'.length < 8 then
        ofGroups (gs ++ List.replicate (8 - (gs.length + gs'.length)) 0 ++ gs')
      else none := by
  rw [parseIPv6, splitDouble_joined h.words]
  simp only [parseSide_joined h, parseSide_joined h']

end Sides

/-! ### Digits -/

section Digits

variable {s t : Text} {n m : ℕ}

/-- Digits are read one part after the other. -/
theorem scanDigits_append {base : ℕ} (h : scanDigits base s n = (m, [])) (t : Text) :
    scanDigits base (s ++ t) n = scanDigits base t m := by
  induction s generalizing n with
  | nil =>
      obtain ⟨rfl, -⟩ := Prod.mk.inj h
      rfl
  | cons c cs ih =>
      rw [scanDigits] at h
      rw [List.cons_append, scanDigits]
      cases hd : digitValue base c with
      | none =>
          rw [hd] at h
          cases h
      | some d =>
          rw [hd] at h
          exact ih h

/-- The digits of `%x` are digits. -/
theorem digitValue_digitChar : ∀ d < 16, digitValue 16 (Nat.digitChar d) = some d := by decide

/-- A number that was printed is read back. -/
theorem scanDigits_hexText (n : ℕ) : scanDigits 16 (hexText n) 0 = (n, []) := by
  induction n using Nat.strong_induction_on with
  | h n ih =>
      have hlow := digitValue_digitChar (n % 16) (Nat.mod_lt n (by decide))
      by_cases hn : n < 16
      · rw [Nat.mod_eq_of_lt hn] at hlow
        rw [hexText, Nat.toDigits_of_lt_base hn, scanDigits, hlow]
        exact congrArg (·, []) (Nat.zero_add n)
      · have hle : 16 ≤ n := Nat.le_of_not_lt hn
        have hhigh := ih (n / 16) (Nat.div_lt_self (by omega) (by decide))
        rw [hexText] at hhigh
        rw [hexText, Nat.toDigits_of_base_le (by decide) hle, scanDigits_append hhigh, scanDigits,
          hlow]
        exact congrArg (·, []) (Nat.div_add_mod n 16)

/-- A group that was printed is read back. -/
theorem parseGroup_hexText (g : Group) : parseGroup (hexText g.toNat) = some g := by
  have hlength : (hexText g.toNat).length ≤ 4 :=
    (Nat.length_toDigits_le_iff (by decide) (by decide)).mpr g.isLt
  rw [parseGroup, if_pos ⟨Nat.toDigits_ne_nil, hlength⟩, scanDigits_hexText]
  simp

/-- Groups that were printed are read back. -/
theorem spells_map_hexText (gs : List Group) : Spells (gs.map fun g => hexText g.toNat) gs := by
  induction gs with
  | nil => exact .nil
  | cons g gs ih => exact .cons (parseGroup_hexText g) ih

end Digits

/-! ### Networks -/

section Network

variable {g0 g1 g2 g3 : Group}

/-- The groups up to the last that is not zero. -/
def significant (gs : List Group) : List Group := gs.rdropWhile fun g => decide (g = 0)

/-- The longest run of an address whose first group is not zero and whose last four are is
the one at its end. -/
theorem longestRun_network : ∀ z1 z2 z3 : Bool,
    longestRun [false, z1, z2, z3, true, true, true, true] =
      some (([false, z1, z2, z3].rdropWhile id).length,
        8 - ([false, z1, z2, z3].rdropWhile id).length) := by decide

/-- Four groups are the significant ones and zeros. -/
theorem significant_append_replicate (gs : List Group) :
    significant gs ++ List.replicate (gs.length - (significant gs).length) 0 = gs := by
  induction gs using List.reverseRecOn with
  | nil => rfl
  | append_singleton gs g ih =>
      by_cases hg : g = 0
      · subst hg
        have hle : (significant gs).length ≤ gs.length := (List.rdropWhile_prefix _ gs).length_le
        rw [significant, List.rdropWhile_concat_pos _ _ _ (by simp), ← significant,
          List.length_append, List.length_singleton, Nat.sub_add_comm hle,
          List.replicate_succ', ← List.append_assoc, ih]
      · rw [significant, List.rdropWhile_concat_neg _ _ _ (by simpa using hg)]
        simp

/-- The significant groups come first. -/
theorem significant_eq_take (gs : List Group) :
    significant gs = gs.take (significant gs).length :=
  List.prefix_iff_eq_take.mp (List.rdropWhile_prefix _ gs)

theorem length_significant_le (gs : List Group) : (significant gs).length ≤ gs.length :=
  (List.rdropWhile_prefix _ gs).length_le

/-- The last group counts exactly when it is not zero. -/
theorem length_significant_concat (gs : List Group) (g : Group) :
    (significant (gs ++ [g])).length ≤ gs.length ↔ g = 0 := by
  by_cases hg : g = 0
  · rw [significant, List.rdropWhile_concat_pos _ _ _ (by simpa using hg)]
    exact ⟨fun _ => hg, fun _ => length_significant_le gs⟩
  · rw [significant, List.rdropWhile_concat_neg _ _ _ (by simpa using hg), List.length_append,
      List.length_singleton]
    exact ⟨fun h => absurd h (Nat.not_succ_le_self _), fun h => absurd h hg⟩

/-- Which groups are zero is all that matters. -/
theorem length_rdropWhile_map (gs : List Group) :
    ((gs.map fun g => decide (g = 0)).rdropWhile id).length = (significant gs).length := by
  rw [significant, List.rdropWhile, List.rdropWhile, ← List.map_reverse, List.dropWhile_map]
  simp

/-- **The text of a /64** ends in a double colon and has the significant groups. -/
theorem compressed_network {addr : IPv6} (h : groups addr = [g0, g1, g2, g3, 0, 0, 0, 0])
    (h0 : g0 ≠ 0) :
    compressed addr =
      joined ((significant [g0, g1, g2, g3]).map fun g => hexText g.toNat) ++
        ':' :: ':' :: joined [] := by
  have hrun := longestRun_network (decide (g1 = 0)) (decide (g2 = 0)) (decide (g3 = 0))
  have hk := length_rdropWhile_map [g0, g1, g2, g3]
  simp only [List.map_cons, List.map_nil, decide_eq_false h0] at hk
  rw [hk] at hrun
  have hle := length_significant_le [g0, g1, g2, g3]
  rw [List.length_cons, List.length_cons, List.length_cons, List.length_singleton] at hle
  have hflags : (groups addr).map (fun g => decide (g = 0)) =
      [false, decide (g1 = 0), decide (g2 = 0), decide (g3 = 0), true, true, true, true] := by
    rw [h]
    simp only [List.map_cons, List.map_nil, decide_eq_false h0]
    rfl
  rw [compressed, hflags, hrun]
  simp only
  rw [if_pos (by omega), Nat.add_sub_cancel' (by omega), List.drop_of_length_le (by simp [h]), h]
  have htake : List.take (significant [g0, g1, g2, g3]).length
      ([g0, g1, g2, g3, 0, 0, 0, 0].map fun g : Group => hexText g.toNat) =
        (significant [g0, g1, g2, g3]).map fun g => hexText g.toNat := by
    rw [← List.map_take,
      show [g0, g1, g2, g3, 0, 0, 0, 0] = [g0, g1, g2, g3] ++ ([0, 0, 0, 0] : List Group) from rfl,
      List.take_append_of_le_length hle, ← significant_eq_take]
  rw [htake]

end Network

/-! ### The round trip -/

section RoundTrip

variable {ts : List Text} {t : Text} {zero : List Bool} {i n : ℕ}

/-- Pieces do not begin with a colon. -/
theorem joined_head (ht : t ≠ [] ∧ ':' ∉ t) (ts : List Text) :
    ∃ c cs, joined (t :: ts) = c :: cs ∧ c ≠ ':' := by
  cases t with
  | nil => exact absurd rfl ht.1
  | cons c cs =>
      have hc : c ≠ ':' := fun hc => ht.2 (hc ▸ List.mem_cons_self)
      cases ts with
      | nil => exact ⟨c, cs, by simp [joined, List.intercalate], hc⟩
      | cons t' ts => exact ⟨c, _, joined_cons_cons _ _ _, hc⟩

/-- Pieces with a colon between them have no double colon. -/
theorem splitDouble_joined_eq_none (h : ∀ t ∈ ts, t ≠ [] ∧ ':' ∉ t) :
    splitDouble (joined ts) = none := by
  induction ts with
  | nil => rfl
  | cons t ts ih =>
      obtain ⟨⟨-, ht⟩, hts⟩ := List.forall_mem_cons.mp h
      cases ts with
      | nil =>
          have hone : joined [t] = t ++ [] := by simp [joined, List.intercalate]
          rw [hone, splitDouble_append ht]
          rfl
      | cons t' ts =>
          obtain ⟨c, cs, hjoined, hc⟩ := joined_head (hts t' List.mem_cons_self) ts
          have htail := ih hts
          rw [hjoined] at htail
          rw [joined_cons_cons, splitDouble_append ht, hjoined, splitDouble_colon hc, htail]
          rfl

/-- Eight groups without a double colon. -/
theorem parseIPv6_joined {gs : List Group} (h : Spells ts gs) :
    parseIPv6 (joined ts) = ofGroups gs := by
  rw [parseIPv6, splitDouble_joined_eq_none h.words]
  simp only [parseSide_joined h]
  rfl

/-- The groups of an address make it up. -/
theorem ofGroups_groups (addr : IPv6) : ofGroups (groups addr) = some addr := by
  rw [groups, ofGroups, BitVec.extractLsb'_append_extractLsb'_eq_extractLsb' (by rfl),
    BitVec.extractLsb'_append_extractLsb'_eq_extractLsb' (by rfl),
    BitVec.extractLsb'_append_extractLsb'_eq_extractLsb' (by rfl),
    BitVec.extractLsb'_append_extractLsb'_eq_extractLsb' (by rfl),
    BitVec.extractLsb'_append_extractLsb'_eq_extractLsb' (by rfl),
    BitVec.extractLsb'_append_extractLsb'_eq_extractLsb' (by rfl),
    BitVec.extractLsb'_append_extractLsb'_eq_extractLsb' (by rfl)]
  simp

/-- The run that is found. -/
theorem of_longestRun (h : longestRun zero = some (i, n)) :
    i < zero.length ∧ ((zero.drop i).takeWhile id).length = n := by
  rw [longestRun] at h
  obtain ⟨j, hj, heq⟩ := Option.map_eq_some_iff.mp h
  obtain ⟨rfl, hn⟩ := Prod.mk.inj heq
  exact ⟨List.mem_range.mp (List.argmax_mem hj), hn⟩

/-- What comes before a run, the run, and what comes behind it. -/
theorem take_replicate_drop {gs : List Group}
    (h : longestRun (gs.map fun g => decide (g = 0)) = some (i, n)) :
    gs.take i ++ List.replicate n 0 ++ gs.drop (i + n) = gs ∧ i + n ≤ gs.length := by
  obtain ⟨hi, hn⟩ := of_longestRun h
  rw [List.length_map] at hi
  rw [← List.map_drop, List.takeWhile_map, List.length_map] at hn
  have hprefix := List.prefix_iff_eq_take.mp
    (List.takeWhile_prefix (id ∘ fun g : Group => decide (g = 0)) (l := gs.drop i))
  rw [hn] at hprefix
  have hzeros : (gs.drop i).take n = List.replicate n 0 := by
    refine List.eq_replicate_iff.mpr ⟨by rw [← hprefix, hn], fun g hg => ?_⟩
    rw [← hprefix] at hg
    simpa using List.mem_takeWhile_imp hg
  have hle : n ≤ (gs.drop i).length := hn ▸ (List.takeWhile_prefix _).length_le
  rw [List.length_drop] at hle
  refine ⟨?_, by omega⟩
  rw [← hzeros, List.append_assoc, ← List.drop_drop, List.take_append_drop,
    List.take_append_drop]

/-- A double colon in the place of a run of zeros. -/
theorem parseIPv6_run {gs : List Group} (hlength : gs.length = 8) (hn : 0 < n)
    (h : longestRun (gs.map fun g => decide (g = 0)) = some (i, n)) :
    parseIPv6 (joined ((gs.take i).map fun g => hexText g.toNat) ++
      ':' :: ':' :: joined ((gs.drop (i + n)).map fun g => hexText g.toNat)) = ofGroups gs := by
  obtain ⟨hsplit, hle⟩ := take_replicate_drop h
  have hsides : (gs.take i).length + (gs.drop (i + n)).length = 8 - n := by
    rw [List.length_take, List.length_drop]
    omega
  rw [parseIPv6_double (spells_map_hexText _) (spells_map_hexText _), hsides,
    if_pos (by omega), show 8 - (8 - n) = n by omega, hsplit]

/-- The text of an address with a run of zeros. -/
theorem compressed_of_run {addr : IPv6} (hn : 2 ≤ n)
    (h : longestRun ((groups addr).map fun g => decide (g = 0)) = some (i, n)) :
    compressed addr = joined (((groups addr).take i).map fun g => hexText g.toNat) ++
      ':' :: ':' :: joined (((groups addr).drop (i + n)).map fun g => hexText g.toNat) := by
  rw [compressed, h, List.map_take, List.map_drop]
  exact if_pos hn

/-- The text of an address without one. -/
theorem compressed_of_no_run {addr : IPv6} (h : ∀ i n,
    longestRun ((groups addr).map fun g => decide (g = 0)) = some (i, n) → ¬ 2 ≤ n) :
    compressed addr = joined ((groups addr).map fun g => hexText g.toNat) := by
  rw [compressed]
  split
  · rename_i hrun
    exact if_neg (h _ _ hrun)
  · rfl

/-- **An address that is printed is read back.** -/
theorem parseIPv6_compressed (addr : IPv6) : parseIPv6 (compressed addr) = some addr := by
  have hlength : (groups addr).length = 8 := rfl
  by_cases h : ∃ i n, longestRun ((groups addr).map fun g => decide (g = 0)) = some (i, n) ∧ 2 ≤ n
  · obtain ⟨i, n, hrun, hn⟩ := h
    rw [compressed_of_run hn hrun, parseIPv6_run hlength (Nat.lt_of_succ_lt hn) hrun,
      ofGroups_groups]
  · rw [compressed_of_no_run fun i n hrun hn => h ⟨i, n, hrun, hn⟩,
      parseIPv6_joined (spells_map_hexText _), ofGroups_groups]

/-- How the text of an address begins: with a colon if the first group is in the run of zeros,
else with the first group. -/
theorem compressed_cases (addr : IPv6) :
    (addr.extractLsb' 112 16 = 0 ∧ ∃ rest, compressed addr = ':' :: rest) ∨
      ∃ rest, compressed addr = hexText (addr.extractLsb' 112 16).toNat ++ ':' :: rest := by
  by_cases h : ∃ i n, longestRun ((groups addr).map fun g => decide (g = 0)) = some (i, n) ∧ 2 ≤ n
  · obtain ⟨i, n, hrun, hn⟩ := h
    rw [compressed_of_run hn hrun]
    cases i with
    | zero =>
        obtain ⟨hsplit, -⟩ := take_replicate_drop hrun
        obtain ⟨m, rfl⟩ : ∃ m, n = m + 1 := ⟨n - 1, by omega⟩
        exact .inl ⟨(List.cons.inj hsplit).1.symm, _, rfl⟩
    | succ i =>
        rw [groups, List.take_succ_cons, List.map_cons]
        cases List.map (fun g : Group => hexText g.toNat) (List.take i _) with
        | nil => exact .inr ⟨_, by rw [joined, List.intercalate_singleton]⟩
        | cons t ts => exact .inr ⟨_, by rw [joined_cons_cons, List.append_assoc]; rfl⟩
  · rw [compressed_of_no_run fun i n hrun hn => h ⟨i, n, hrun, hn⟩, groups, List.map_cons,
      List.map_cons]
    exact .inr ⟨_, joined_cons_cons _ _ _⟩

/-- The digits of `%x`. -/
theorem exists_of_mem_hexText {n : ℕ} {c : Char} (h : c ∈ hexText n) :
    ∃ d < 16, c = Nat.digitChar d := by
  induction n using Nat.strong_induction_on with
  | h n ih =>
      by_cases hn : n < 16
      · rw [hexText, Nat.toDigits_of_lt_base hn, List.mem_singleton] at h
        exact ⟨n, hn, h⟩
      · rw [hexText, Nat.toDigits_of_base_le (by decide) (Nat.le_of_not_lt hn),
          List.mem_append, List.mem_singleton] at h
        rcases h with h | h
        · exact ih (n / 16) (Nat.div_lt_self (by omega) (by decide)) h
        · exact ⟨n % 16, Nat.mod_lt n (by decide), h⟩

/-- The characters of groups with colons between them. -/
theorem exists_of_mem_joined {gs : List Group} {c : Char}
    (h : c ∈ joined (gs.map fun g => hexText g.toNat)) :
    c = ':' ∨ ∃ d < 16, c = Nat.digitChar d := by
  induction gs with
  | nil => cases h
  | cons g gs ih =>
      cases gs with
      | nil =>
          rw [joined, List.map_cons, List.map_nil, List.intercalate_singleton] at h
          exact .inr (exists_of_mem_hexText h)
      | cons g' gs =>
          rw [List.map_cons, List.map_cons, joined_cons_cons, List.mem_append, List.mem_cons] at h
          rcases h with h | h | h
          · exact .inr (exists_of_mem_hexText h)
          · exact .inl h
          · exact ih h

/-- The characters of an address. -/
theorem exists_of_mem_compressed {addr : IPv6} {c : Char} (h : c ∈ compressed addr) :
    c = ':' ∨ ∃ d < 16, c = Nat.digitChar d := by
  by_cases hrun : ∃ i n,
      longestRun ((groups addr).map fun g => decide (g = 0)) = some (i, n) ∧ 2 ≤ n
  · obtain ⟨i, n, hrun, hn⟩ := hrun
    rw [compressed_of_run hn hrun, List.mem_append, List.mem_cons, List.mem_cons] at h
    rcases h with h | h | h | h
    · exact exists_of_mem_joined h
    · exact .inl h
    · exact .inl h
    · exact exists_of_mem_joined h
  · rw [compressed_of_no_run fun i n h hn => hrun ⟨i, n, h, hn⟩] at h
    exact exists_of_mem_joined h

end RoundTrip

end V4WithV6Nh
