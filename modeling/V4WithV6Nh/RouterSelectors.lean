import V4WithV6Nh.FreebsdDaemon
import V4WithV6Nh.Networkd

/-!
# Two Router Selectors

`select_router` of the FreeBSD daemon and `dhcp4_select_ndisc_router` of the networkd patch
look for the same router: highest preference, lowest address among ties, and none with the
reserved preference. Both begin with a best rank of -1, which is the rank of the reserved
preference. networkd asks at the end whether the best rank is negative; the FreeBSD daemon
asks whether it has found a router, and a reserved one counts.

## Main results

* `selectRouter_eq_none_iff`: the FreeBSD daemon finds a router in every list that is not
  empty.
* `selectors_agree_iff`: on the same routers the two selectors agree, on the best router,
  exactly when one has a preference that is not reserved, or there are none.
-/

namespace V4WithV6Nh.FreebsdDaemon

section Loop

variable {ifindex : ℕ} {drlist : List Defrouter}

/-- The routers of the interface with their ranks. -/
def candidates (ifindex : ℕ) (drlist : List Defrouter) : List (IPv6 × ℤ) :=
  (drlist.filter fun dr => decide (dr.ifIndex = ifindex)).map fun dr =>
    (dr.rtaddr, prefRank dr.flags)

/-- The loop of `select_router` over routers with their ranks. -/
def keepFound (best : Option IPv6 × ℤ) (e : IPv6 × ℤ) : Option IPv6 × ℤ :=
  if e.2 < best.2 then best
  else
    match best.1 with
    | some a => if e.2 = best.2 ∧ a ≤ e.1 then best else (some e.1, e.2)
    | none => (some e.1, e.2)

/-- The selection is the loop of `keepFound` over the routers of the interface. -/
theorem selectRouter_eq : selectRouter ifindex drlist =
    ((candidates ifindex drlist).foldl keepFound (none, -1)).1 := by
  rw [selectRouter, candidates, List.foldl_map, List.foldl_filter]
  refine congrArg Prod.fst (List.foldl_ext _ _ _ fun best dr _ => ?_)
  rw [considerRouter]
  by_cases hif : dr.ifIndex = ifindex
  · simp only [hif, ne_eq, not_true_eq_false, if_false, decide_true, if_true]
    rfl
  · simp [hif]

/-- No rank is below -1. -/
theorem neg_one_le_prefRank (flags : BitVec 8) : -1 ≤ prefRank flags := by
  rw [prefRank]
  split_ifs <;> omega

/-- What the loop knows of the routers it has visited: there were none, or it holds the one
of highest rank, with the lowest address among ties. -/
def Found (routers : List (IPv6 × ℤ)) (best : Option IPv6 × ℤ) : Prop :=
  (routers = [] ∧ best = (none, -1)) ∨
  ∃ a, best.1 = some a ∧ (a, best.2) ∈ routers ∧
    ∀ e ∈ routers, e.2 < best.2 ∨ e.2 = best.2 ∧ a ≤ e.1

/-- A router that is beaten changes nothing. -/
theorem keepFound_of_beats {a : IPv6} {rank : ℤ} {e : IPv6 × ℤ} (h : Beats (a, rank) e) :
    keepFound (some a, rank) e = (some a, rank) := by
  rw [keepFound]
  rcases h with hlt | htie
  · rw [if_pos hlt]
  · simp only [if_pos htie, ite_self]

/-- A router that is not beaten is kept. -/
theorem keepFound_of_not_beats {a : IPv6} {rank : ℤ} {e : IPv6 × ℤ}
    (h : ¬ Beats (a, rank) e) : keepFound (some a, rank) e = (some e.1, e.2) := by
  obtain ⟨hlt, htie⟩ := not_or.mp h
  rw [keepFound, if_neg hlt]
  exact if_neg htie

/-- One round of the loop. -/
theorem found_keepFound {routers : List (IPv6 × ℤ)} {best : Option IPv6 × ℤ}
    (h : Found routers best) {e : IPv6 × ℤ} (he : -1 ≤ e.2) :
    Found (routers ++ [e]) (keepFound best e) := by
  have hlast : e ∈ routers ++ [e] := List.mem_append_right _ (List.mem_singleton_self e)
  rcases h with ⟨rfl, rfl⟩ | ⟨a, ha, hin, hmax⟩
  · have hfirst : keepFound (none, -1) e = (some e.1, e.2) := by
      rw [keepFound, if_neg (by simp only; omega)]
    rw [hfirst]
    exact Or.inr ⟨e.1, rfl, hlast, List.forall_mem_singleton.mpr (Beats.refl e)⟩
  · obtain ⟨_, rank⟩ := best
    subst ha
    by_cases hkeep : Beats (a, rank) e
    · rw [keepFound_of_beats hkeep]
      exact Or.inr ⟨a, rfl, List.mem_append_left _ hin, Beats.append_singleton hmax hkeep⟩
    · -- `e` beats the best router so far, which beats the others
      have hover : Beats e (a, rank) := Beats.of_not hkeep
      rw [keepFound_of_not_beats hkeep]
      exact Or.inr ⟨e.1, rfl, hlast,
        Beats.append_singleton (fun x hx => hover.trans (hmax x hx)) (Beats.refl e)⟩

/-- The loop over a whole list. -/
theorem found_foldl_keepFound (routers : List (IPv6 × ℤ)) (hranks : ∀ e ∈ routers, -1 ≤ e.2) :
    Found routers (routers.foldl keepFound (none, -1)) := by
  induction routers using List.reverseRecOn with
  | nil => exact Or.inl ⟨rfl, rfl⟩
  | append_singleton routers e ih =>
      rw [List.foldl_append]
      refine found_keepFound (ih fun x hx => hranks x ?_) (hranks e ?_)
      · exact List.mem_append_left _ hx
      · exact List.mem_append_right _ (List.mem_singleton_self e)

/-- What the loop finds in the list of the interface. -/
theorem found_candidates (ifindex : ℕ) (drlist : List Defrouter) :
    Found (candidates ifindex drlist)
      ((candidates ifindex drlist).foldl keepFound (none, -1)) := by
  refine found_foldl_keepFound _ fun e he => ?_
  obtain ⟨dr, -, rfl⟩ := List.mem_map.mp he
  exact neg_one_le_prefRank dr.flags

/-- **A router is found in every list that is not empty.** -/
theorem selectRouter_eq_none_iff :
    selectRouter ifindex drlist = none ↔ candidates ifindex drlist = [] := by
  rw [selectRouter_eq]
  obtain ⟨hnil, hbest⟩ | ⟨a, ha, hin, -⟩ := found_candidates ifindex drlist
  · rw [hbest]
    exact iff_of_true rfl hnil
  · rw [ha]
    exact iff_of_false (Option.some_ne_none a) (List.ne_nil_of_mem hin)

/-- With a usable router in the list the best one is found. -/
theorem isBest_of_selectRouter {a : IPv6} (h : selectRouter ifindex drlist = some a)
    (husable : ∃ e ∈ candidates ifindex drlist, 0 ≤ e.2) :
    IsBest (candidates ifindex drlist) a := by
  rw [selectRouter_eq] at h
  obtain ⟨-, hbest⟩ | ⟨a', ha', hin, hmax⟩ := found_candidates ifindex drlist
  · rw [hbest] at h
    cases h
  · obtain rfl : a' = a := Option.some.inj (ha'.symm.trans h)
    obtain ⟨e, he, hpos⟩ := husable
    refine ⟨_, hin, ?_, hmax⟩
    have := hmax e he
    omega

end Loop

/-! ### Agreement -/

/-- The preference in the flags of a Router Advertisement. -/
def preferenceOf (raflags : BitVec 8) : Networkd.Preference :=
  if raflags &&& 0x18 = 0x08 then .high
  else if raflags &&& 0x18 = 0x00 then .medium
  else if raflags &&& 0x18 = 0x18 then .low
  else .reserved

/-- The two rank functions are one. -/
theorem ndiscPreferenceRank_preferenceOf (raflags : BitVec 8) :
    Networkd.ndiscPreferenceRank (preferenceOf raflags) = prefRank raflags := by
  rw [preferenceOf, prefRank, ND_RA_FLAG_RTPREF_MASK, ND_RA_FLAG_RTPREF_HIGH,
    ND_RA_FLAG_RTPREF_MEDIUM, ND_RA_FLAG_RTPREF_LOW]
  split_ifs <;> rfl

/-- The default router list has on the interface the routers that the link knows, with the
same preferences, in whatever order. -/
def SameRouters (ifindex : ℕ) (drlist : List Defrouter) (link : Networkd.Link) : Prop :=
  ∀ a pref, (∃ dr ∈ drlist, dr.ifIndex = ifindex ∧ dr.rtaddr = a ∧
      preferenceOf dr.flags = pref) ↔
    ∃ e ∈ link.ndiscRoutersBySender, e.1 = a ∧ e.2.preference.getD .medium = pref

section Agreement

variable {ifindex : ℕ} {drlist : List Defrouter} {link : Networkd.Link}

/-- Both selectors see the same routers with the same ranks. -/
theorem mem_candidates_iff (h : SameRouters ifindex drlist link) (e : IPv6 × ℤ) :
    e ∈ candidates ifindex drlist ↔ e ∈ Networkd.candidates link := by
  rw [candidates, Networkd.candidates, List.mem_map, List.mem_map]
  constructor
  · rintro ⟨dr, hdr, rfl⟩
    obtain ⟨hmem, hif⟩ := List.mem_filter.mp hdr
    obtain ⟨x, hx, ha, hpref⟩ := (h dr.rtaddr (preferenceOf dr.flags)).mp
      ⟨dr, hmem, of_decide_eq_true hif, rfl, rfl⟩
    exact ⟨x, hx, by rw [ha, hpref, ndiscPreferenceRank_preferenceOf]⟩
  · rintro ⟨x, hx, rfl⟩
    obtain ⟨dr, hmem, hif, ha, hpref⟩ := (h x.1 _).mpr ⟨x, hx, rfl, rfl⟩
    refine ⟨dr, List.mem_filter.mpr ⟨hmem, decide_eq_true hif⟩, ?_⟩
    rw [ha, ← hpref, ndiscPreferenceRank_preferenceOf]

/-- The selectors return the same, and what they return is the best router. -/
def Agree (ifindex : ℕ) (drlist : List Defrouter) (link : Networkd.Link) : Prop :=
  selectRouter ifindex drlist = Networkd.dhcp4SelectNdiscRouter link ∧
    ∀ a, selectRouter ifindex drlist = some a → IsBest (Networkd.candidates link) a

/-- **Exactly when the selectors agree**: for every list of default routers, in every
order, both return the router of highest preference and lowest address, exactly when some
router has a preference that is not reserved, or there is no router. -/
theorem selectors_agree_iff (h : SameRouters ifindex drlist link) :
    Agree ifindex drlist link ↔
      Networkd.Usable link ∨ link.ndiscRoutersBySender = [] := by
  have hmem := mem_candidates_iff h
  by_cases husable : Networkd.Usable link
  · refine iff_of_true ?_ (Or.inl husable)
    have husable' : ∃ e ∈ candidates ifindex drlist, 0 ≤ e.2 := by
      obtain ⟨e, he, hpos⟩ := husable
      exact ⟨e, (hmem e).mpr he, hpos⟩
    have hbest : ∀ a, selectRouter ifindex drlist = some a →
        IsBest (Networkd.candidates link) a := fun a ha =>
      (isBest_of_selectRouter ha husable').congr hmem
    refine ⟨?_, hbest⟩
    cases hbsd : selectRouter ifindex drlist with
    | none =>
        obtain ⟨e, he, -⟩ := husable'
        rw [selectRouter_eq_none_iff.mp hbsd] at he
        cases he
    | some a =>
        cases hnd : Networkd.dhcp4SelectNdiscRouter link with
        | none => exact absurd husable (Networkd.dhcp4SelectNdiscRouter_eq_none_iff.mp hnd)
        | some b =>
            rw [(hbest a hbsd).unique (Networkd.isBest_of_dhcp4SelectNdiscRouter hnd)]
  · have hnone := Networkd.dhcp4SelectNdiscRouter_eq_none_iff.mpr husable
    have hempty : candidates ifindex drlist = [] ↔ link.ndiscRoutersBySender = [] := by
      rw [List.eq_nil_iff_forall_not_mem, ← List.map_eq_nil_iff (l := link.ndiscRoutersBySender),
        List.eq_nil_iff_forall_not_mem]
      exact forall_congr' fun e => not_congr (hmem e)
    rw [Agree, hnone, selectRouter_eq_none_iff, hempty]
    constructor
    · exact fun hagree => Or.inr hagree.1
    · rintro (h' | hnil)
      · exact absurd h' husable
      · refine ⟨hnil, fun a ha => ?_⟩
        rw [selectRouter_eq_none_iff.mpr (hempty.mpr hnil)] at ha
        cases ha

end Agreement

/-- A link with one router. -/
def oneRouter (pref : Networkd.Preference) : Networkd.Link where
  ifindex := 1
  dhcpLease := none
  network := none
  ndiscRoutersBySender := [(0xa, ⟨some pref⟩)]

/-- One router in both lists. -/
theorem sameRouters_oneRouter (raflags : BitVec 8) :
    SameRouters 1 [⟨0xa, raflags, 1⟩] (oneRouter (preferenceOf raflags)) := by
  intro a pref
  simp [oneRouter]

/-- Routers of all preferences, two of them of the highest, and one on another interface. -/
def severalRouters : List Defrouter :=
  [⟨0xc, 0x08, 1⟩, ⟨0xa, 0x10, 1⟩, ⟨0x9, 0x08, 2⟩, ⟨0xb, 0x08, 1⟩, ⟨0xd, 0x18, 1⟩, ⟨0xe, 0x00, 1⟩]

/-- The same routers as a link knows them, in another order. -/
def severalRoutersLink : Networkd.Link where
  ifindex := 1
  dhcpLease := none
  network := none
  ndiscRoutersBySender :=
    [(0xe, ⟨none⟩), (0xd, ⟨some .low⟩), (0xb, ⟨some .high⟩), (0xa, ⟨some .reserved⟩),
      (0xc, ⟨some .high⟩)]

theorem sameRouters_severalRouters : SameRouters 1 severalRouters severalRoutersLink := by
  intro a pref
  have hhigh : preferenceOf 8#8 = .high := rfl
  have hreserved : preferenceOf 16#8 = .reserved := rfl
  have hlow : preferenceOf 24#8 = .low := rfl
  have hmedium : preferenceOf 0#8 = .medium := rfl
  simp only [severalRouters, severalRoutersLink, BitVec.ofNat_eq_ofNat, List.mem_cons,
    List.not_mem_nil, or_false, exists_eq_or_imp, true_and, Nat.succ_ne_self, false_and,
    ↓existsAndEq, false_or, Option.getD_none, Option.getD_some, hhigh, hreserved, hlow, hmedium]
  tauto

/-- The selectors agree, in whatever order the list comes. -/
theorem selectors_agree_several :
    Agree 1 severalRouters severalRoutersLink ∧
      Agree 1 severalRouters.reverse severalRoutersLink := by
  have husable : Networkd.Usable severalRoutersLink := ⟨(0xb, 2), by decide, by decide⟩
  have hreverse : SameRouters 1 severalRouters.reverse severalRoutersLink := by
    intro a pref
    simpa only [List.mem_reverse] using sameRouters_severalRouters a pref
  exact ⟨(selectors_agree_iff sameRouters_severalRouters).mpr (Or.inl husable),
    (selectors_agree_iff hreverse).mpr (Or.inl husable)⟩

/-- **A reserved router**: the FreeBSD daemon routes through it, and networkd finds none. -/
theorem reserved_router_selected :
    ∃ ifindex drlist link, SameRouters ifindex drlist link ∧
      selectRouter ifindex drlist = some 0xa ∧ Networkd.dhcp4SelectNdiscRouter link = none ∧
      ¬ Agree ifindex drlist link := by
  have hbsd : selectRouter 1 [⟨0xa, 0x10, 1⟩] = some 0xa := by decide
  have hnd : Networkd.dhcp4SelectNdiscRouter (oneRouter .reserved) = none := by decide
  refine ⟨1, [⟨0xa, 0x10, 1⟩], oneRouter .reserved, sameRouters_oneRouter 0x10, hbsd, hnd, ?_⟩
  rintro ⟨hagree, -⟩
  rw [hbsd, hnd] at hagree
  cases hagree

end V4WithV6Nh.FreebsdDaemon
