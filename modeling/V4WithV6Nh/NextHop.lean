import V4WithV6Nh.Manager

/-!
# Which Next Hop `best_nexthop` Returns

`best_nexthop` derives the GUA that the host forms from the advertised prefix and its MAC,
collects the host's addresses from the router's ND cache, and makes three passes over the
usable ones: the derived GUA, any other global or ULA address, a link-local address.

`Candidate` is what the passes look at, in terms of the ND dump: an address of the MAC on
the interface in a usable state. `Chosen` says what is to be returned, and depends on the
candidates only. If the deciding class has several members the order of the dump decides
which of them is returned, but not which class.

## Main results

* `entries_cache`: the entries of the cache are the rows of the dump with that MAC.
* `bestNexthop_correct`: the next hop is chosen as `Chosen` says, and every permutation of
  the dump gives one of the same class, the same one if the class has no other member.
-/

namespace V4WithV6Nh.Manager

/-! ### The derived GUA -/

/-- An address that has the first octet of another one is in the same class. -/
theorem isGlobalOrUla_congr {a b : IPv6} (h : a >>> 120 = b >>> 120) :
    isGlobalOrUla a = isGlobalOrUla b := by
  rw [isGlobalOrUla, isGlobalOrUla, h]

/-- The network address of a /64 has the first octet of its addresses. -/
theorem shift_network64 (a : IPv6) : network64 a >>> 120 = a >>> 120 := by
  apply BitVec.eq_of_toNat_eq
  simp only [network64, BitVec.toNat_ushiftRight, BitVec.toNat_shiftLeft,
    Nat.shiftRight_eq_div_pow, Nat.shiftLeft_eq]
  have := a.isLt
  omega

/-- An interface identifier leaves the first octet alone. -/
theorem shift_or_iid (net : IPv6) (iid : BitVec 64) :
    (net ||| iid.setWidth 128) >>> 120 = net >>> 120 := by
  have hzero : iid.setWidth 128 >>> 120 = 0#128 := by
    apply BitVec.eq_of_toNat_eq
    have hlt := iid.isLt
    rw [BitVec.toNat_ushiftRight, BitVec.toNat_setWidth, Nat.shiftRight_eq_div_pow,
      BitVec.toNat_zero, Nat.mod_eq_of_lt (by omega)]
    exact Nat.div_eq_of_lt (by omega)
  rw [BitVec.ushiftRight_or_distrib, hzero, BitVec.or_zero]

section NextHop

variable [UnicodeTables] {env : Env} {idx : ℕ} {mac : Text} {nh nh' : Option IPv6}

/-- The GUA that `best_nexthop` derives, if the interface has a prefix and the MAC six
octets. -/
def derivedGua (env : Env) (idx : ℕ) (mac : Text) : Option IPv6 :=
  (prefixOf env idx).bind fun net => deriveGua net mac

/-- The derived GUA is a global or ULA address. -/
theorem isGlobalOrUla_derivedGua {a : IPv6} (h : derivedGua env idx mac = some a) :
    isGlobalOrUla a = true := by
  obtain ⟨net, hnet, hgua⟩ := Option.bind_eq_some_iff.mp h
  have hglobal : isGlobalOrUla net = true := by
    obtain ⟨r, -, hr⟩ := List.exists_of_findSome?_eq_some hnet
    split at hr
    · cases hr
    · split at hr
      · rename_i dst hdst
        split at hr
        · rename_i hdst
          obtain rfl := Option.some.inj hr
          rw [isGlobalOrUla_congr (shift_network64 dst)]
          exact hdst
        · cases hr
      · cases hr
  rw [deriveGua] at hgua
  split at hgua
  · obtain rfl := Option.some.inj hgua
    rw [isGlobalOrUla_congr (shift_or_iid net _)]
    exact hglobal
  · cases hgua

/-! ### The cache -/

/-- The cache entry of a row of the ND dump, if it is one of the MAC. -/
def cacheRow (mac : Text) (n : Neigh6) : Option (IPv6 × ℕ) :=
  match n.lladdr, n.dst with
  | some lla, some dst =>
      if lla ≠ [] ∧ UnicodeTables.lower lla = mac then some (dst, n.state) else none
  | _, _ => none

/-- No address occurs twice in the ND dump of the interface. -/
def UniqueRows (env : Env) (idx : ℕ) : Prop :=
  ((env.neigh6.filter fun n => decide (n.ifindex = idx)).filterMap Neigh6.dst).Nodup

/-- The entry of a row has the address of the row. -/
theorem dst_of_cacheRow {n : Neigh6} {e : IPv6 × ℕ} (h : cacheRow mac n = some e) :
    n.dst = some e.1 := by
  rw [cacheRow] at h
  split at h
  · rename_i hdst
    split at h
    · obtain rfl := Option.some.inj h
      exact hdst
    · cases h
  · cases h

/-- The addresses of the rows of one MAC are among those of all rows. -/
theorem map_cacheRow_sublist (l : List Neigh6) :
    ((l.filterMap (cacheRow mac)).map Prod.fst).Sublist (l.filterMap Neigh6.dst) := by
  induction l with
  | nil => exact List.Sublist.refl _
  | cons n l ih =>
      cases hrow : cacheRow mac n with
      | none =>
          rw [List.filterMap_cons_none hrow]
          exact ih.trans ((List.sublist_cons_self n l).filterMap _)
      | some e =>
          rw [List.filterMap_cons_some hrow, List.filterMap_cons_some (dst_of_cacheRow hrow)]
          exact ih.cons_cons e.1

/-- **The entries of the cache** are the rows of the dump with that MAC, in dump order. -/
theorem entries_cache (hneigh : env.fault (.getNeighbours mac) = none)
    (hunique : UniqueRows env idx) : (cache env idx mac).entries =
      (env.neigh6.filter fun n => decide (n.ifindex = idx)).filterMap (cacheRow mac) := by
  have hnodup := hunique.sublist (@map_cacheRow_sublist _ mac _)
  have hfold := OrderedDict.entries_foldl_set (d := OrderedDict.empty) (cacheRow mac) _ hnodup
  simp only [cache, hneigh]
  refine Eq.trans (congrArg OrderedDict.entries (List.foldl_ext _ _ _ fun out n _ => ?_)) hfold
  rw [cacheRow]
  cases hlla : n.lladdr with
  | none => rfl
  | some lla =>
      cases hdst : n.dst with
      | none => rfl
      | some dst =>
          simp only
          split <;> rfl

/-! ### What is chosen -/

/-- An address of the MAC in the ND cache of the interface, in a usable state. -/
def Candidate (env : Env) (idx : ℕ) (mac : Text) (a : IPv6) : Prop :=
  ∃ n ∈ env.neigh6, n.ifindex = idx ∧ n.dst = some a ∧ nudUsable n.state = true ∧
    ∃ lla, n.lladdr = some lla ∧ lla ≠ [] ∧ UnicodeTables.lower lla = mac

/-- The next hop to be chosen: the derived GUA if it is a candidate, else a global or ULA
candidate if there is one, else a candidate that begins fe80, else none. -/
def Chosen (env : Env) (idx : ℕ) (mac : Text) : Option IPv6 → Prop
  | some a => Candidate env idx mac a ∧
      ((∃ g, derivedGua env idx mac = some g ∧ Candidate env idx mac g) →
        derivedGua env idx mac = some a) ∧
      ((∃ b, isGlobalOrUla b = true ∧ Candidate env idx mac b) → isGlobalOrUla a = true) ∧
      (isGlobalOrUla a = true ∨ startsWithFe80 a = true)
  | none => ∀ b, Candidate env idx mac b → isGlobalOrUla b = false ∧ startsWithFe80 b = false

/-- The class of a next hop. -/
inductive NextHopClass
  | derivedGua
  | globalOrUla
  | linkLocal
  | none
deriving DecidableEq

/-- The class of the next hop `nh` where `gua` is the derived GUA. -/
def classOf (gua : Option IPv6) (nh : Option IPv6) : NextHopClass :=
  match nh with
  | none => .none
  | some a =>
      if gua = some a then .derivedGua
      else if isGlobalOrUla a then .globalOrUla
      else if startsWithFe80 a then .linkLocal
      else .none

/-- A candidate is an entry of the cache in a usable state. -/
theorem candidate_iff (hneigh : env.fault (.getNeighbours mac) = none)
    (hunique : UniqueRows env idx) {a : IPv6} : Candidate env idx mac a ↔
      ∃ st, (a, st) ∈ (cache env idx mac).entries ∧ nudUsable st = true := by
  simp only [entries_cache hneigh hunique, List.mem_filterMap, List.mem_filter,
    decide_eq_true_eq]
  constructor
  · rintro ⟨n, hn, hidx, hdst, hstate, lla, hlla, hmac⟩
    refine ⟨n.state, ⟨n, ⟨hn, hidx⟩, ?_⟩, hstate⟩
    rw [cacheRow, hlla, hdst]
    exact if_pos hmac
  · rintro ⟨st, ⟨n, ⟨hn, hidx⟩, hrow⟩, hstate⟩
    have hdst := dst_of_cacheRow hrow
    cases hlla : n.lladdr with
    | none =>
        rw [cacheRow, hlla] at hrow
        cases hrow
    | some lla =>
        simp only [cacheRow, hlla, hdst] at hrow
        split at hrow
        · rename_i hmac
          obtain ⟨-, rfl⟩ := Prod.mk.inj (Option.some.inj hrow)
          exact ⟨n, hn, hidx, hdst, hstate, lla, hlla, hmac⟩
        · cases hrow

/-- The derived GUA passes the first test exactly if it is a candidate. -/
theorem usable_get_iff (hneigh : env.fault (.getNeighbours mac) = none)
    (hunique : UniqueRows env idx) {a : IPv6} :
    nudUsable (((cache env idx mac).get a).getD 0) = true ↔ Candidate env idx mac a := by
  rw [candidate_iff hneigh hunique]
  constructor
  · intro h
    cases hget : (cache env idx mac).get a with
    | none =>
        rw [hget] at h
        cases h
    | some st =>
        rw [hget] at h
        exact ⟨st, OrderedDict.get_eq_some_iff.mp hget, h⟩
  · rintro ⟨st, hmem, hstate⟩
    rw [OrderedDict.get_eq_some_iff.mpr hmem]
    exact hstate

/-- What a pass over the cache finds. -/
theorem find?_usable_some (hneigh : env.fault (.getNeighbours mac) = none)
    (hunique : UniqueRows env idx) {q : IPv6 → Bool} {a : IPv6}
    (h : ((cache env idx mac).entries.find? fun e => nudUsable e.2 && q e.1).map Prod.fst =
      some a) : Candidate env idx mac a ∧ q a = true := by
  obtain ⟨⟨b, st⟩, he, rfl⟩ := Option.map_eq_some_iff.mp h
  have htest := List.find?_some he
  rw [Bool.and_eq_true] at htest
  exact ⟨(candidate_iff hneigh hunique).mpr ⟨st, List.mem_of_find?_eq_some he, htest.1⟩, htest.2⟩

/-- A pass over the cache that finds nothing. -/
theorem find?_usable_none (hneigh : env.fault (.getNeighbours mac) = none)
    (hunique : UniqueRows env idx) {q : IPv6 → Bool} {a : IPv6}
    (h : ((cache env idx mac).entries.find? fun e => nudUsable e.2 && q e.1).map Prod.fst =
      none) (ha : Candidate env idx mac a) : q a = false := by
  obtain ⟨st, hmem, hstate⟩ := (candidate_iff hneigh hunique).mp ha
  have htest := List.find?_eq_none.mp (Option.map_eq_none_iff.mp h) (a, st) hmem
  simpa [hstate] using htest

/-- **The next hop is chosen as `Chosen` says.** -/
theorem bestNexthop_chosen (hroutes : env.fault (.getRoutes mac) = none)
    (hneigh : env.fault (.getNeighbours mac) = none) (hunique : UniqueRows env idx) :
    ∃ nh, bestNexthop env idx mac = .ok (nh, derivedGua env idx mac) ∧
      Chosen env idx mac nh := by
  simp only [bestNexthop, hroutes]
  rw [show ((prefixOf env idx).bind fun net => deriveGua net mac) = derivedGua env idx mac
    from rfl]
  split
  · rename_i g hg
    obtain ⟨hgua, hget⟩ := Option.filter_eq_some_iff.mp hg
    have hcandidate := (usable_get_iff hneigh hunique).mp hget
    have hglobal := isGlobalOrUla_derivedGua hgua
    exact ⟨_, rfl, hcandidate, fun _ => hgua, fun _ => hglobal, Or.inl hglobal⟩
  · rename_i a hnone ha
    obtain ⟨hcandidate, hglobal⟩ := find?_usable_some hneigh hunique ha
    refine ⟨_, rfl, hcandidate, ?_, fun _ => hglobal, Or.inl hglobal⟩
    rintro ⟨g, hgua, hg⟩
    exact absurd ((usable_get_iff hneigh hunique).mpr hg)
      (Option.filter_eq_none_iff.mp hnone g hgua)
  · rename_i a hnone hglobal ha
    obtain ⟨hcandidate, hlocal⟩ := find?_usable_some hneigh hunique ha
    have hnot : ∀ b, Candidate env idx mac b → isGlobalOrUla b = false :=
      fun b hb => find?_usable_none hneigh hunique hglobal hb
    refine ⟨_, rfl, hcandidate, ?_, ?_, Or.inr hlocal⟩
    · rintro ⟨g, hgua, hg⟩
      exact absurd (isGlobalOrUla_derivedGua hgua) (by rw [hnot g hg]; exact Bool.false_ne_true)
    · rintro ⟨b, hb, hcb⟩
      rw [hnot b hcb] at hb
      cases hb
  · rename_i hnone hglobal hlocal
    exact ⟨_, rfl, fun b hb => ⟨find?_usable_none hneigh hunique hglobal hb,
      find?_usable_none hneigh hunique hlocal hb⟩⟩

/-! ### The order of the dump -/

/-- A candidate that is chosen leaves no room for choosing none. -/
theorem Chosen.not_none {a : IPv6} (h : Chosen env idx mac (some a)) :
    ¬ Chosen env idx mac none := by
  intro hnone
  obtain ⟨hglobal, hlocal⟩ := hnone a h.1
  rcases h.2.2.2 with h | h
  · rw [hglobal] at h
    cases h
  · rw [hlocal] at h
    cases h

/-- Two candidates that may be chosen are the derived GUA both or neither. -/
theorem Chosen.derived_iff {a b : IPv6} (ha : Chosen env idx mac (some a))
    (hb : Chosen env idx mac (some b)) :
    derivedGua env idx mac = some a ↔ derivedGua env idx mac = some b :=
  ⟨fun h => hb.2.1 ⟨a, h, ha.1⟩, fun h => ha.2.1 ⟨b, h, hb.1⟩⟩

/-- Two candidates that may be chosen are global both or neither. -/
theorem Chosen.global_eq {a b : IPv6} (ha : Chosen env idx mac (some a))
    (hb : Chosen env idx mac (some b)) : isGlobalOrUla a = isGlobalOrUla b :=
  Bool.eq_iff_iff.mpr ⟨fun h => hb.2.2.1 ⟨a, h, ha.1⟩, fun h => ha.2.2.1 ⟨b, h, hb.1⟩⟩

/-- **What may be chosen is of one class.** -/
theorem Chosen.classOf_eq (h : Chosen env idx mac nh) (h' : Chosen env idx mac nh') :
    classOf (derivedGua env idx mac) nh' = classOf (derivedGua env idx mac) nh := by
  cases nh with
  | none =>
      cases nh' with
      | none => rfl
      | some b => exact absurd h h'.not_none
  | some a =>
      cases nh' with
      | none => exact absurd h' h.not_none
      | some b =>
          simp only [classOf, Chosen.derived_iff h' h, Chosen.global_eq h' h]
          split
          · rfl
          · split
            · rfl
            · rename_i hglobal
              rw [if_pos (h.2.2.2.resolve_left hglobal)]
              rw [← Chosen.global_eq h' h] at hglobal
              rw [if_pos (h'.2.2.2.resolve_left hglobal)]

/-- The candidates do not depend on the order of the dump. -/
theorem candidate_perm {l : List Neigh6} (hl : l.Perm env.neigh6) {a : IPv6} :
    Candidate { env with neigh6 := l } idx mac a ↔ Candidate env idx mac a :=
  exists_congr fun _ => and_congr_left' hl.mem_iff

/-- What may be chosen does not depend on the order of the dump. -/
theorem chosen_perm {l : List Neigh6} (hl : l.Perm env.neigh6) :
    Chosen { env with neigh6 := l } idx mac nh ↔ Chosen env idx mac nh := by
  have hgua : derivedGua { env with neigh6 := l } idx mac = derivedGua env idx mac := rfl
  cases nh with
  | none => simp only [Chosen, candidate_perm hl]
  | some a => simp only [Chosen, candidate_perm hl, hgua]

/-- The candidate is the only one of its class. -/
def OnlyOne (env : Env) (idx : ℕ) (mac : Text) (nh : Option IPv6) : Prop :=
  ∀ b, Candidate env idx mac b →
    classOf (derivedGua env idx mac) (some b) = classOf (derivedGua env idx mac) nh →
    some b = nh

/-- **The choice of `best_nexthop`**: the next hop is chosen as `Chosen` says, and every
permutation of the ND dump gives one of the same class, and the same one if no other
candidate is of that class. -/
theorem bestNexthop_correct (hroutes : env.fault (.getRoutes mac) = none)
    (hneigh : env.fault (.getNeighbours mac) = none) (hunique : UniqueRows env idx) :
    ∃ nh, bestNexthop env idx mac = .ok (nh, derivedGua env idx mac) ∧
      Chosen env idx mac nh ∧
      ∀ l : List Neigh6, l.Perm env.neigh6 →
        ∃ nh', bestNexthop { env with neigh6 := l } idx mac =
            .ok (nh', derivedGua env idx mac) ∧
          classOf (derivedGua env idx mac) nh' = classOf (derivedGua env idx mac) nh ∧
          (OnlyOne env idx mac nh → nh' = nh) := by
  obtain ⟨nh, hbest, hchosen⟩ := bestNexthop_chosen hroutes hneigh hunique
  refine ⟨nh, hbest, hchosen, fun l hl => ?_⟩
  have hunique' : UniqueRows { env with neigh6 := l } idx :=
    ((hl.filter _).filterMap _).nodup_iff.mpr hunique
  have hroutes' : ({ env with neigh6 := l } : Env).fault (.getRoutes mac) = none := hroutes
  have hneigh' : ({ env with neigh6 := l } : Env).fault (.getNeighbours mac) = none := hneigh
  obtain ⟨nh', hbest', hchosen'⟩ := bestNexthop_chosen hroutes' hneigh' hunique'
  have hchosen' := (chosen_perm hl).mp hchosen'
  refine ⟨nh', hbest', hchosen.classOf_eq hchosen', fun honly => ?_⟩
  cases nh' with
  | none =>
      cases nh with
      | none => rfl
      | some a => exact absurd hchosen' hchosen.not_none
  | some b => exact honly b hchosen'.1 (hchosen.classOf_eq hchosen')

end NextHop

/-- The ND cache of `eth0` with a failed derived GUA, a global address and a link-local
one. -/
def threeEntries : Env where
  links := [⟨"eth0".toList, 3, 1⟩]
  routes6 := [⟨64, some 0x20010db8000000010000000000000000#128, some 3, none, none, []⟩]
  neigh6 := [⟨3, some 0xfe800000000000000000000000000001#128, some "02:00:00:00:00:01".toList, 2⟩,
    ⟨3, some 0x20010db80000000100000000000000aa#128, some "02:00:00:00:00:01".toList, 4⟩,
    ⟨3, some 0x20010db800000001000000fffe000001#128, some "02:00:00:00:00:01".toList, 0x20⟩]
  fault := fun _ => none
  monotonic := fun _ => 0
  stateWriteFails := false

/-- The global address is chosen. -/
theorem bestNexthop_correct_three : ∃ nh,
    bestNexthop threeEntries 3 "02:00:00:00:00:01".toList =
      .ok (nh, derivedGua threeEntries 3 "02:00:00:00:00:01".toList) ∧
    nh = some 0x20010db80000000100000000000000aa#128 := by
  have hunique : UniqueRows threeEntries 3 := by
    unfold UniqueRows
    decide
  have hroutes : threeEntries.fault (.getRoutes "02:00:00:00:00:01".toList) = none := rfl
  obtain ⟨nh, hbest, -, -⟩ := bestNexthop_correct hroutes rfl hunique
  refine ⟨nh, hbest, ?_⟩
  have hcomputed : bestNexthop threeEntries 3 "02:00:00:00:00:01".toList =
      .ok (some 0x20010db80000000100000000000000aa#128,
        some 0x20010db800000001000000fffe000001#128) := by decide
  rw [hbest, Except.ok.injEq, Prod.mk.injEq] at hcomputed
  exact hcomputed.1

end V4WithV6Nh.Manager
