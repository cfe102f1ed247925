import Mathlib.Data.List.Induction
import Mathlib.Order.Lattice

/-!
# The Last Maximum of a List

A loop that replaces the best element so far by every element whose key is *not smaller*
ends with the last element of maximal key. `lastMax` is that loop, and
`lastMax_eq_some_iff` says which element it returns. (`List.argmax` keeps the first one
instead.)

So the result is of maximal key whatever the order of the list. But where two elements
share the maximal key the order decides: `lastMax_append_of_maximal` says that a maximal
element moved to the end is returned, and `lastMax_eq_of_sole` that a sole maximal element
is returned from everywhere.
-/

namespace V4WithV6Nh

variable {α β : Type*} [LinearOrder β] {key : α → β} {l l' : List α} {a b : α}

/-- One round of the loop. -/
def keepLast (key : α → β) (best : Option α) (a : α) : Option α :=
  match best with
  | none => some a
  | some b => if key b ≤ key a then some a else some b

/-- The loop over a whole list. -/
def lastMax (key : α → β) (l : List α) : Option α := l.foldl (keepLast key) none

/-- No element of the list has a larger key. -/
def Maximal (key : α → β) (l : List α) (a : α) : Prop := a ∈ l ∧ ∀ b ∈ l, key b ≤ key a

/-- Elements before `a` have no larger key, and elements after it a smaller one. -/
def IsLastMax (key : α → β) (l : List α) (a : α) : Prop :=
  ∃ l₁ l₂, l = l₁ ++ a :: l₂ ∧ (∀ b ∈ l₁, key b ≤ key a) ∧ ∀ b ∈ l₂, key b < key a

/-- The last element of maximal key is of maximal key. -/
theorem IsLastMax.maximal (h : IsLastMax key l a) : Maximal key l a := by
  obtain ⟨l₁, l₂, rfl, hbefore, hafter⟩ := h
  refine ⟨List.mem_append_right l₁ List.mem_cons_self, fun b hb => ?_⟩
  rcases List.mem_append.mp hb with hb | hb
  · exact hbefore b hb
  · rcases List.mem_cons.mp hb with rfl | hb
    · exact le_refl _
    · exact le_of_lt (hafter b hb)

/-- One round of the loop, by the element of the round. -/
theorem lastMax_append_singleton (l : List α) (a : α) :
    lastMax key (l ++ [a]) = keepLast key (lastMax key l) a := by
  rw [lastMax, List.foldl_append]
  rfl

/-- The loop over a list that is not empty returns its last maximum. -/
theorem exists_lastMax (key : α → β) {l : List α} (hl : l ≠ []) :
    ∃ a, lastMax key l = some a ∧ IsLastMax key l a := by
  induction l using List.reverseRecOn with
  | nil => exact absurd rfl hl
  | append_singleton l a ih =>
      rw [lastMax_append_singleton]
      by_cases hnil : l = []
      · subst hnil
        refine ⟨a, rfl, [], [], rfl, fun b hb => ?_, fun b hb => ?_⟩ <;> cases hb
      · obtain ⟨b, hb, hlast⟩ := ih hnil
        rw [hb, keepLast]
        by_cases hle : key b ≤ key a
        · refine ⟨a, if_pos hle, l, [], rfl, fun x hx => ?_, fun x hx => by cases hx⟩
          exact le_trans (hlast.maximal.2 x hx) hle
        · obtain ⟨l₁, l₂, rfl, hbefore, hafter⟩ := hlast
          refine ⟨b, if_neg hle, l₁, l₂ ++ [a], by simp, hbefore, ?_⟩
          exact List.forall_mem_append.mpr
            ⟨hafter, List.forall_mem_singleton.mpr (not_le.mp hle)⟩

/-- The loop returns nothing for the empty list only. -/
theorem lastMax_eq_none_iff : lastMax key l = none ↔ l = [] := by
  constructor
  · intro h
    by_contra hl
    obtain ⟨a, ha, -⟩ := exists_lastMax key hl
    rw [h] at ha
    cases ha
  · rintro rfl
    rfl

/-- What the loop returns is the last maximum. -/
theorem isLastMax_of_lastMax (h : lastMax key l = some a) : IsLastMax key l a := by
  have hl : l ≠ [] := by
    rintro rfl
    cases h
  obtain ⟨b, hb, hlast⟩ := exists_lastMax key hl
  obtain rfl : b = a := Option.some.inj (hb.symm.trans h)
  exact hlast

/-- Elements of a smaller key do not change the result. -/
theorem foldl_keepLast_of_lt (h : ∀ b ∈ l, key b < key a) :
    l.foldl (keepLast key) (some a) = some a := by
  induction l with
  | nil => rfl
  | cons b l ih =>
      have hlt : ¬ key a ≤ key b := not_le.mpr (h b List.mem_cons_self)
      rw [List.foldl_cons, keepLast, if_neg hlt]
      exact ih fun x hx => h x (List.mem_cons_of_mem b hx)

/-- **The loop returns the last maximum.** -/
theorem lastMax_eq_some_iff : lastMax key l = some a ↔ IsLastMax key l a := by
  refine ⟨isLastMax_of_lastMax, ?_⟩
  rintro ⟨l₁, l₂, rfl, hbefore, hafter⟩
  have htake : keepLast key (lastMax key l₁) a = some a := by
    cases hbest : lastMax key l₁ with
    | none => rfl
    | some b => exact if_pos (hbefore b (isLastMax_of_lastMax hbest).maximal.1)
  rw [lastMax, List.foldl_append, List.foldl_cons]
  exact htake ▸ foldl_keepLast_of_lt hafter

/-- A maximal element at the end of the list is returned. -/
theorem lastMax_append_of_maximal (h : ∀ b ∈ l, key b ≤ key a) :
    lastMax key (l ++ [a]) = some a :=
  lastMax_eq_some_iff.mpr ⟨l, [], rfl, h, fun b hb => by cases hb⟩

/-- The last element that passes a filter. -/
theorem getLast?_filter_append_cons {p : α → Bool} {l₁ l₂ : List α} (ha : p a = true)
    (hafter : ∀ b ∈ l₂, p b = false) : ((l₁ ++ a :: l₂).filter p).getLast? = some a := by
  have hnil : l₂.filter p = [] := by
    refine List.filter_eq_nil_iff.mpr fun b hb => ?_
    rw [hafter b hb]
    exact Bool.false_ne_true
  rw [List.filter_append, List.filter_cons_of_pos ha, hnil, List.getLast?_concat]

/-- Permuting a list keeps its maximal elements. -/
theorem Maximal.perm (hl : l.Perm l') (h : Maximal key l a) : Maximal key l' a :=
  ⟨hl.mem_iff.mp h.1, fun b hb => h.2 b (hl.mem_iff.mpr hb)⟩

/-- If no two elements share the maximal key, every permutation of the list has the same
last maximum. -/
theorem lastMax_eq_of_sole (hl : l.Perm l')
    (hsole : ∀ a b, Maximal key l a → Maximal key l b → a = b) :
    lastMax key l' = lastMax key l := by
  cases hbest : lastMax key l with
  | none =>
      obtain rfl := lastMax_eq_none_iff.mp hbest
      rw [hl.symm.eq_nil]
      rfl
  | some a =>
      have ha := (isLastMax_of_lastMax hbest).maximal
      have hl' : l' ≠ [] := fun h => List.ne_nil_of_mem ha.1 (hl.trans (h ▸ .refl _)).eq_nil
      obtain ⟨b, hb, hlast⟩ := exists_lastMax key hl'
      rw [hb, hsole b a (hlast.maximal.perm hl.symm) ha]

end V4WithV6Nh
