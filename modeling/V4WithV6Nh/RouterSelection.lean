import Mathlib.Data.List.Basic
import Mathlib.Data.List.Sort
import V4WithV6Nh.Linux

/-!
# Selecting a Default Router by Preference and Address

A default router list gives each router an address and a rank, where a negative rank puts
a router out of the running. The router to select is the one of highest rank, and among
those the one of lowest address: `IsBest`. It depends on which routers are in the list
and not on their order, and there is at most one (`IsBest.unique`).

`keepBest` is the loop by which programs find it, one router at a time, with a rank of -1
and the zero address to start from. `isBest_of_foldl_keepBest` and
`foldl_keepBest_lt_iff` say that the loop is right in whatever order it visits the list.

Where routes have a metric instead, the first one of lowest metric is selected, with a loop
or by a stable sort. The two are the same: `head?_insertionSort`.
-/

namespace V4WithV6Nh

/-- The router of highest rank, with the lowest address among ties. -/
def IsBest (routers : List (IPv6 × ℤ)) (a : IPv6) : Prop :=
  ∃ rank, (a, rank) ∈ routers ∧ 0 ≤ rank ∧
    ∀ e ∈ routers, e.2 < rank ∨ e.2 = rank ∧ a ≤ e.1

/-- A router of higher rank, or of the same rank and no higher address. -/
def Beats (a e : IPv6 × ℤ) : Prop := e.2 < a.2 ∨ e.2 = a.2 ∧ a.1 ≤ e.1

namespace Beats

variable {a b e : IPv6 × ℤ} {routers : List (IPv6 × ℤ)}

theorem refl (a : IPv6 × ℤ) : Beats a a := Or.inr ⟨rfl, BitVec.le_refl _⟩

theorem trans (hab : Beats a b) (hbe : Beats b e) : Beats a e := by
  rcases hab with hlt | ⟨heq, hle⟩
  · rcases hbe with hlt' | ⟨heq', -⟩
    · exact Or.inl (by omega)
    · exact Or.inl (by omega)
  · rcases hbe with hlt' | ⟨heq', hle'⟩
    · exact Or.inl (by omega)
    · exact Or.inr ⟨by omega, BitVec.le_trans hle hle'⟩

theorem of_not (h : ¬ Beats a b) : Beats b a := by
  rw [Beats, not_or, not_and] at h
  obtain ⟨hle, htie⟩ := h
  by_cases heq : b.2 = a.2
  · exact Or.inr ⟨heq.symm, BitVec.le_of_lt (BitVec.not_le.mp (htie heq))⟩
  · exact Or.inl (by omega)

theorem antisymm (hab : Beats a b) (hba : Beats b a) : a.1 = b.1 := by
  rcases hab with hlt | ⟨heq, hle⟩
  · rcases hba with hlt' | ⟨heq', -⟩
    · omega
    · omega
  · rcases hba with hlt' | ⟨-, hle'⟩
    · omega
    · exact BitVec.le_antisymm hle hle'

/-- What beats a list and one more router beats the longer list. -/
theorem append_singleton (h : ∀ x ∈ routers, Beats a x) (he : Beats a e) :
    ∀ x ∈ routers ++ [e], Beats a x :=
  List.forall_mem_append.mpr ⟨h, List.forall_mem_singleton.mpr he⟩

end Beats

/-- There is one best router at most. -/
theorem IsBest.unique {routers : List (IPv6 × ℤ)} {a b : IPv6} (ha : IsBest routers a)
    (hb : IsBest routers b) : a = b := by
  obtain ⟨r, har, -, hmaxa⟩ := ha
  obtain ⟨q, hbq, -, hmaxb⟩ := hb
  exact Beats.antisymm (a := (a, r)) (b := (b, q)) (hmaxa _ hbq) (hmaxb _ har)

/-- The best router depends on which routers are in the list only. -/
theorem IsBest.congr {l l' : List (IPv6 × ℤ)} {a : IPv6} (hl : ∀ e, e ∈ l ↔ e ∈ l')
    (ha : IsBest l a) : IsBest l' a := by
  obtain ⟨r, har, hr, hmax⟩ := ha
  exact ⟨r, (hl _).mp har, hr, fun e he => hmax e ((hl e).mpr he)⟩

/-- One round of the selection loop, with the best rank and address so far. -/
def keepBest (best : ℤ × IPv6) (e : IPv6 × ℤ) : ℤ × IPv6 :=
  if e.2 < best.1 then best
  else if e.2 = best.1 ∧ best.2 ≤ e.1 then best
  else (e.2, e.1)

/-- What the loop knows of the routers it has visited: none of them is in the running, or
it holds the best one and its rank. -/
def Holds (routers : List (IPv6 × ℤ)) (best : ℤ × IPv6) : Prop :=
  best = (-1, 0) ∧ (∀ e ∈ routers, e.2 < 0) ∨
  0 ≤ best.1 ∧ (best.2, best.1) ∈ routers ∧
    ∀ e ∈ routers, e.2 < best.1 ∨ e.2 = best.1 ∧ best.2 ≤ e.1

/-- A router that is beaten changes nothing. -/
theorem keepBest_of_beats {best : ℤ × IPv6} {e : IPv6 × ℤ} (h : Beats (best.2, best.1) e) :
    keepBest best e = best := by
  rw [keepBest]
  rcases h with hlt | htie
  · rw [if_pos hlt]
  · rw [if_pos htie, ite_self]

/-- A router that is not beaten is kept. -/
theorem keepBest_of_not_beats {best : ℤ × IPv6} {e : IPv6 × ℤ}
    (h : ¬ Beats (best.2, best.1) e) : keepBest best e = (e.2, e.1) := by
  obtain ⟨hlt, htie⟩ := not_or.mp h
  rw [keepBest, if_neg hlt, if_neg htie]

/-- One round of the loop. -/
theorem holds_keepBest {routers : List (IPv6 × ℤ)} {best : ℤ × IPv6} (h : Holds routers best)
    (e : IPv6 × ℤ) : Holds (routers ++ [e]) (keepBest best e) := by
  have hlast : e ∈ routers ++ [e] := List.mem_append_right _ (List.mem_singleton_self e)
  rcases h with ⟨rfl, hnone⟩ | ⟨hpos, hin, hmax⟩
  · by_cases hneg : e.2 < 0
    · -- a router out of the running changes nothing: no address is below the zero address
      have hskip : Beats ((0 : IPv6), (-1 : ℤ)) e := by
        by_cases hlt : e.2 < -1
        · exact Or.inl hlt
        · exact Or.inr ⟨by simp only; omega, BitVec.not_lt.mp BitVec.not_lt_zero⟩
      rw [keepBest_of_beats hskip]
      exact Or.inl ⟨rfl, List.forall_mem_append.mpr
        ⟨hnone, List.forall_mem_singleton.mpr hneg⟩⟩
    · have htake : ¬ Beats ((0 : IPv6), (-1 : ℤ)) e := by
        rintro (hlt | ⟨heq, -⟩)
        · simp only at hlt
          omega
        · simp only at heq
          omega
      rw [keepBest_of_not_beats htake]
      refine Or.inr ⟨by simp only; omega, hlast, Beats.append_singleton (fun x hx => ?_)
        (Beats.refl e)⟩
      have := hnone x hx
      exact Or.inl (by omega)
  · by_cases hkeep : Beats (best.2, best.1) e
    · rw [keepBest_of_beats hkeep]
      exact Or.inr ⟨hpos, List.mem_append_left _ hin, Beats.append_singleton hmax hkeep⟩
    · -- `e` beats the best router so far, which beats the others
      have hover : Beats e (best.2, best.1) := Beats.of_not hkeep
      rw [keepBest_of_not_beats hkeep]
      refine Or.inr ⟨?_, hlast,
        Beats.append_singleton (fun x hx => hover.trans (hmax x hx)) (Beats.refl e)⟩
      rcases hover with hlt | ⟨heq, -⟩
      · simp only at hlt ⊢
        omega
      · simp only at heq ⊢
        omega

/-- The loop over a whole list. -/
theorem holds_foldl_keepBest (routers : List (IPv6 × ℤ)) :
    Holds routers (routers.foldl keepBest (-1, 0)) := by
  induction routers using List.reverseRecOn with
  | nil => exact Or.inl ⟨rfl, fun e he => nomatch he⟩
  | append_singleton routers e ih =>
      rw [List.foldl_append]
      exact holds_keepBest ih e

/-- The loop ends with a negative rank exactly when no router is in the running. -/
theorem foldl_keepBest_lt_iff (routers : List (IPv6 × ℤ)) :
    (routers.foldl keepBest (-1, 0)).1 < 0 ↔ ∀ e ∈ routers, e.2 < 0 := by
  obtain ⟨heq, hnone⟩ | ⟨hpos, hin, -⟩ := holds_foldl_keepBest routers
  · rw [heq]
    exact iff_of_true (by decide) hnone
  · refine iff_of_false (by omega) fun hnone => ?_
    have := hnone _ hin
    simp only at this
    omega

/-- **The loop finds the best router.** -/
theorem isBest_of_foldl_keepBest {routers : List (IPv6 × ℤ)}
    (h : ¬ (routers.foldl keepBest (-1, 0)).1 < 0) :
    IsBest routers (routers.foldl keepBest (-1, 0)).2 := by
  obtain ⟨heq, -⟩ | ⟨hpos, hin, hmax⟩ := holds_foldl_keepBest routers
  · rw [heq] at h
    exact absurd (by decide) h
  · exact ⟨_, hin, hpos, hmax⟩

/-! ### The first of lowest metric -/

section Metric

variable {α : Type*} (metric : α → ℕ)

/-- One round of a loop that keeps the first element of lowest metric. -/
def keepLowest (best : Option α) (x : α) : Option α :=
  match best with
  | none => some x
  | some b => if metric x < metric b then some x else some b

/-- What a stable sort by metric has in front, as a recursion over the list. -/
theorem head?_insertionSort_cons (x : α) (l : List α) :
    ((x :: l).insertionSort fun a b => metric a ≤ metric b).head? =
      match (l.insertionSort fun a b => metric a ≤ metric b).head? with
      | none => some x
      | some b => if metric b < metric x then some b else some x := by
  rw [List.insertionSort_cons]
  cases l.insertionSort fun a b => metric a ≤ metric b with
  | nil => rfl
  | cons b t =>
      rw [List.orderedInsert_cons, List.head?_cons]
      by_cases h : metric x ≤ metric b
      · rw [if_pos h]
        simp only [List.head?_cons, if_neg (not_lt.mpr h)]
      · rw [if_neg h]
        simp only [List.head?_cons, if_pos (not_le.mp h)]

/-- The loop goes on from what it has kept. -/
theorem foldl_keepLowest_some (b : α) (l : List α) :
    l.foldl (keepLowest metric) (some b) =
      match (l.insertionSort fun a b => metric a ≤ metric b).head? with
      | none => some b
      | some c => if metric c < metric b then some c else some b := by
  induction l generalizing b with
  | nil => rfl
  | cons x l ih =>
      rw [List.foldl_cons, head?_insertionSort_cons, keepLowest]
      cases hhead : (l.insertionSort fun a b => metric a ≤ metric b).head? with
      | none =>
          simp only [hhead] at ih
          by_cases hx : metric x < metric b
          · simp only [if_pos hx, ih]
          · simp only [if_neg hx, ih]
      | some c =>
          simp only [hhead] at ih
          by_cases hx : metric x < metric b
          · simp only [if_pos hx, ih]
            by_cases hc : metric c < metric x
            · simp only [if_pos hc, if_pos (hc.trans hx)]
            · simp only [if_neg hc, if_pos hx]
          · simp only [if_neg hx, ih]
            by_cases hc : metric c < metric x
            · simp only [if_pos hc]
            · have hcb : ¬ metric c < metric b := by omega
              simp only [if_neg hc, if_neg hx, if_neg hcb]

/-- **A stable sort and the loop select the same.** -/
theorem head?_insertionSort (l : List α) :
    (l.insertionSort fun a b => metric a ≤ metric b).head? =
      l.foldl (keepLowest metric) none := by
  cases l with
  | nil => rfl
  | cons x l =>
      rw [List.foldl_cons, head?_insertionSort_cons]
      exact (foldl_keepLowest_some metric x l).symm

end Metric

end V4WithV6Nh
