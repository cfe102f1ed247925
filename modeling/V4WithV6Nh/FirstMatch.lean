import Mathlib.Data.List.Basic

/-!
# Tables Updated at Their First Match

Kernel tables and insertion-ordered dictionaries are lists of rows in which an update
addresses the *first* row that matches a key: an update in place if there is one, a new
row at the end if there is none. `upsertFirst p a l` is that operation for an arbitrary
predicate `p`; the deletion that goes with it is `List.eraseP p`.

The lemmas say what such an update leaves alone, row for row and in order: a deletion
leaves a part `q` of the table that `p` cannot reach (`filter_eraseP`), and an update
leaves a part the new row is not in exactly when the first match is outside of it
(`filter_upsertFirst_iff`).
-/

namespace V4WithV6Nh

variable {α β : Type*} {p q : α → Bool} {a x : α} {l : List α}

/-- Replace the first row of `l` that satisfies `p` by `a`, or add `a` at the end. -/
def upsertFirst (p : α → Bool) (a : α) : List α → List α
  | [] => [a]
  | x :: xs => if p x then a :: xs else x :: upsertFirst p a xs

/-- The new row is in the table. -/
theorem mem_upsertFirst_self (p : α → Bool) (a : α) (l : List α) :
    a ∈ upsertFirst p a l := by
  induction l with
  | nil => exact List.mem_singleton_self a
  | cons x xs ih =>
      by_cases h : p x
      · simp [upsertFirst, h]
      · simp [upsertFirst, h, ih]

/-- Two keys that find the same rows make the same update. -/
theorem upsertFirst_congr (h : ∀ x ∈ l, p x = q x) : upsertFirst p a l = upsertFirst q a l := by
  induction l with
  | nil => rfl
  | cons x xs ih =>
      rw [upsertFirst, upsertFirst, h x List.mem_cons_self,
        ih fun y hy => h y (List.mem_cons_of_mem x hy)]

/-- A row that does not match stays. -/
theorem mem_upsertFirst_of_mem (hx : x ∈ l) (hp : p x = false) :
    x ∈ upsertFirst p a l := by
  induction l with
  | nil => cases hx
  | cons y ys ih =>
      rw [upsertFirst]
      split
      · rename_i hy
        rcases List.mem_cons.mp hx with rfl | hx
        · rw [hp] at hy
          cases hy
        · exact List.mem_cons_of_mem _ hx
      · rcases List.mem_cons.mp hx with rfl | hx
        · exact List.mem_cons_self
        · exact List.mem_cons_of_mem _ (ih hx)

/-- Every row after the update is the new row or an old one. -/
theorem eq_or_mem_of_mem_upsertFirst (hx : x ∈ upsertFirst p a l) : x = a ∨ x ∈ l := by
  induction l with
  | nil => exact Or.inl (List.mem_singleton.mp hx)
  | cons y ys ih =>
      rw [upsertFirst] at hx
      split at hx
      · rcases List.mem_cons.mp hx with h | h
        · exact Or.inl h
        · exact Or.inr (List.mem_cons_of_mem _ h)
      · rcases List.mem_cons.mp hx with h | h
        · exact Or.inr (h ▸ List.mem_cons_self)
        · exact (ih h).imp id (List.mem_cons_of_mem _)

/-- Without a match the new row comes last. -/
theorem upsertFirst_of_forall_not (h : ∀ x ∈ l, p x = false) :
    upsertFirst p a l = l ++ [a] := by
  induction l with
  | nil => rfl
  | cons y ys ih =>
      rw [upsertFirst, h y List.mem_cons_self, if_neg Bool.false_ne_true,
        ih fun x hx => h x (List.mem_cons_of_mem _ hx), List.cons_append]

/-- A view of the rows in which the new row looks like the one it replaces does not
change. -/
theorem map_upsertFirst_of_find? {f : α → β} (hx : l.find? p = some x) (hf : f a = f x) :
    (upsertFirst p a l).map f = l.map f := by
  induction l with
  | nil => cases hx
  | cons y ys ih =>
      rw [List.find?_cons] at hx
      cases hy : p y with
      | true =>
          rw [hy] at hx
          obtain rfl : y = x := Option.some.inj hx
          rw [upsertFirst, hy, if_pos rfl, List.map_cons, List.map_cons, hf]
      | false =>
          rw [hy] at hx
          rw [upsertFirst, hy, if_neg Bool.false_ne_true, List.map_cons, List.map_cons, ih hx]

/-- A row that neither matches nor is the new one is there before exactly when it is
there after. -/
theorem mem_upsertFirst_iff (hp : p x = false) (hne : x ≠ a) :
    x ∈ upsertFirst p a l ↔ x ∈ l :=
  ⟨fun h => (eq_or_mem_of_mem_upsertFirst h).resolve_left hne,
    fun h => mem_upsertFirst_of_mem h hp⟩

/-- **Frame rule for deletions**: a part of the table that the deletion cannot match is
unchanged. -/
theorem filter_eraseP (hpq : ∀ x ∈ l, p x = true → q x = false) :
    (l.eraseP p).filter q = l.filter q := by
  induction l with
  | nil => rfl
  | cons y ys ih =>
      have htail : (ys.eraseP p).filter q = ys.filter q :=
        ih fun x hx => hpq x (List.mem_cons_of_mem _ hx)
      by_cases hy : p y
      · rw [List.eraseP_cons_of_pos hy, List.filter_cons, hpq y List.mem_cons_self hy]
        rfl
      · rw [List.eraseP_cons_of_neg hy, List.filter_cons, List.filter_cons, htail]

/-- A deletion takes the first of the rows it matches. -/
theorem filter_eraseP_self (p : α → Bool) (l : List α) :
    (l.eraseP p).filter p = (l.filter p).tail := by
  induction l with
  | nil => rfl
  | cons y ys ih =>
      by_cases hy : p y
      · rw [List.eraseP_cons_of_pos hy, List.filter_cons_of_pos hy, List.tail_cons]
      · rw [List.eraseP_cons_of_neg hy, List.filter_cons_of_neg hy,
          List.filter_cons_of_neg hy, ih]

/-- A matching row outlives a deletion exactly when it is behind the first one. -/
theorem mem_eraseP_iff_of_pos (hx : p x = true) :
    x ∈ l.eraseP p ↔ x ∈ (l.filter p).tail := by
  rw [← filter_eraseP_self, List.mem_filter]
  exact ⟨fun h => ⟨h, hx⟩, fun h => h.1⟩

/-- A deletion takes the only row it matches. -/
theorem eraseP_eq_filter (h : (l.filter p).length ≤ 1) :
    l.eraseP p = l.filter fun x => !p x := by
  induction l with
  | nil => rfl
  | cons y ys ih =>
      by_cases hy : p y
      · rw [List.filter_cons_of_pos hy, List.length_cons] at h
        have hnone : ys.filter p = [] := List.length_eq_zero_iff.mp (by omega)
        have hys : ∀ x ∈ ys, (!p x) = true := fun x hx => by
          rw [Bool.not_eq_true', ← Bool.not_eq_true]
          exact List.filter_eq_nil_iff.mp hnone x hx
        rw [List.eraseP_cons_of_pos hy, List.filter_cons_of_neg (by simpa using hy),
          List.filter_eq_self.mpr hys]
      · rw [List.filter_cons_of_neg hy] at h
        rw [List.eraseP_cons_of_neg hy, List.filter_cons_of_pos (by simpa using hy), ih h]

/-- An update through a wider key is the update through the narrower one if the first row that
the wider one finds has the narrower one. -/
theorem upsertFirst_of_find? (hqp : ∀ x, q x = true → p x = true)
    (h : ∀ x, l.find? p = some x → q x = true) : upsertFirst p a l = upsertFirst q a l := by
  induction l with
  | nil => rfl
  | cons y ys ih =>
      cases hy : p y with
      | true =>
          have hq := h y (by rw [List.find?_cons, hy])
          simp only [upsertFirst, hy, hq, if_true]
      | false =>
          have hq : q y = false := by
            rw [← Bool.not_eq_true] at hy ⊢
            exact mt (hqp y) hy
          have hys := ih fun x hx => h x (by rw [List.find?_cons, hy]; exact hx)
          simp only [upsertFirst, hy, hq, hys, Bool.false_eq_true, if_false]

/-- An update with a matching row puts it in the place of the first match. -/
theorem filter_upsertFirst_self (ha : p a = true) (l : List α) :
    (upsertFirst p a l).filter p = a :: (l.filter p).tail := by
  induction l with
  | nil => simp [upsertFirst, ha]
  | cons y ys ih =>
      by_cases hy : p y
      · rw [upsertFirst, if_pos hy, List.filter_cons_of_pos ha, List.filter_cons_of_pos hy,
          List.tail_cons]
      · rw [upsertFirst, if_neg hy, List.filter_cons_of_neg hy, List.filter_cons_of_neg hy, ih]

/-- After an update with a matching row, that row is the first match. -/
theorem find?_upsertFirst (ha : p a = true) (l : List α) :
    (upsertFirst p a l).find? p = some a := by
  induction l with
  | nil => simp [upsertFirst, ha]
  | cons y ys ih =>
      rw [upsertFirst]
      split
      · rw [List.find?_cons, ha]
      · rename_i hy
        rw [List.find?_cons, (Bool.not_eq_true _).mp hy, ih]

/-- An update with a first match in `q` loses one row of `q` if the new row is not in
`q`. -/
theorem length_filter_upsertFirst (h : l.find? p = some x) (hx : q x = true)
    (ha : q a = false) :
    ((upsertFirst p a l).filter q).length + 1 = (l.filter q).length := by
  induction l with
  | nil => cases h
  | cons y ys ih =>
      rw [List.find?_cons] at h
      cases hy : p y with
      | true =>
          rw [hy] at h
          obtain rfl : y = x := Option.some.inj h
          simp [upsertFirst, hy, ha, hx]
      | false =>
          rw [hy] at h
          have htail := ih h
          simp only [upsertFirst, hy, Bool.false_eq_true, if_false, List.filter_cons]
          split
          · simp only [List.length_cons]
            omega
          · exact htail

/-- **The exact frame condition of an update**: a part `q` of the table the new row is
not in is unchanged exactly when the first match, if there is one, is outside `q`. -/
theorem filter_upsertFirst_iff (ha : q a = false) :
    (upsertFirst p a l).filter q = l.filter q ↔ ∀ x, l.find? p = some x → q x = false := by
  constructor
  · intro hframe x hx
    cases hq : q x with
    | false => rfl
    | true =>
        have hlen := length_filter_upsertFirst hx hq ha
        rw [hframe] at hlen
        omega
  · intro hfirst
    induction l with
    | nil => simp [upsertFirst, ha]
    | cons y ys ih =>
        cases hy : p y with
        | true =>
            have hq : q y = false := hfirst y (by rw [List.find?_cons, hy])
            simp [upsertFirst, hy, ha, hq]
        | false =>
            have htail : (upsertFirst p a ys).filter q = ys.filter q :=
              ih fun x hx => hfirst x (by rw [List.find?_cons, hy]; exact hx)
            simp [upsertFirst, hy, List.filter_cons, htail]

/-- The first row at which `q` holds is the first for a stronger `p` that holds there. -/
theorem find?_eq_some_of_imp (hpq : ∀ x, p x = true → q x = true) (h : l.find? q = some a)
    (ha : p a = true) : l.find? p = some a := by
  obtain ⟨-, pre, post, rfl, hpre⟩ := List.find?_eq_some_iff_append.mp h
  refine List.find?_eq_some_iff_append.mpr ⟨ha, pre, post, rfl, fun x hx => ?_⟩
  have hq := hpre x hx
  rw [Bool.not_eq_true', ← Bool.not_eq_true] at hq ⊢
  exact mt (hpq x) hq

/-- A scan that stops only where `p` holds sees no more than that part of the list. -/
theorem findSome?_eq_of_filter_eq {f : α → Option β} {l l' : List α}
    (hf : ∀ x b, f x = some b → p x = true) (h : l.filter p = l'.filter p) :
    l.findSome? f = l'.findSome? f := by
  have hfilter : ∀ m : List α, (m.filter p).findSome? f = m.findSome? f := by
    intro m
    induction m with
    | nil => rfl
    | cons x xs ih =>
        cases hx : f x with
        | some b => rw [List.filter_cons_of_pos (hf x b hx), List.findSome?_cons, hx,
            List.findSome?_cons, hx]
        | none =>
            rw [List.findSome?_cons, hx, ← ih, List.filter_cons]
            split
            · rw [List.findSome?_cons, hx]
            · rfl
  rw [← hfilter l, h, hfilter l']

/-- A scan finds what all its hits agree on. -/
theorem findSome?_eq_some_of_agree {f : α → Option β} {b : β} (hx : x ∈ l) (hb : f x = some b)
    (hagree : ∀ y ∈ l, ∀ c, f y = some c → c = b) : l.findSome? f = some b := by
  cases hfound : l.findSome? f with
  | none =>
      rw [List.findSome?_eq_none_iff.mp hfound x hx] at hb
      cases hb
  | some c =>
      obtain ⟨y, hy, hc⟩ := List.exists_of_findSome?_eq_some hfound
      rw [hagree y hy c hc]

/-- **Two scans of one list**: a scan and a stricter one find the same exactly when the
first row that the wider one stops at is one for both, or the stricter one finds the same
further on. -/
theorem findSome?_eq_findSome?_iff {f g : α → Option β}
    (hgf : ∀ x ∈ l, ∀ b, g x = some b → f x = some b) :
    l.findSome? f = l.findSome? g ↔ ∀ x b, l.find? (fun x => (f x).isSome) = some x →
      f x = some b → g x = some b ∨ l.findSome? g = some b := by
  have hnone : ∀ x ∈ l, f x = none → g x = none := by
    intro x hx hf
    cases hg : g x with
    | none => rfl
    | some b =>
        rw [hgf x hx b hg] at hf
        cases hf
  cases hfound : l.findSome? f with
  | none =>
      have hall := List.findSome?_eq_none_iff.mp hfound
      refine iff_of_true (List.findSome?_eq_none_iff.mpr fun x hx => hnone x hx (hall x hx)).symm ?_
      intro x b hx hb
      rw [hall x (List.mem_of_find?_eq_some hx)] at hb
      cases hb
  | some b =>
      obtain ⟨pre, y, post, rfl, hy, hpre⟩ := List.findSome?_eq_some_iff.mp hfound
      have hfirst : (pre ++ y :: post).find? (fun x => (f x).isSome) = some y :=
        List.find?_eq_some_iff_append.mpr ⟨by rw [hy]; rfl, pre, post, rfl, fun x hx => by
          rw [hpre x hx]; rfl⟩
      constructor
      · intro h x c hx hc
        obtain rfl : y = x := Option.some.inj (hfirst.symm.trans hx)
        obtain rfl : b = c := Option.some.inj (hy.symm.trans hc)
        exact Or.inr h.symm
      · intro h
        rcases h y b hfirst hy with hg | hg
        · refine (List.findSome?_eq_some_iff.mpr ⟨pre, y, post, rfl, hg, fun x hx => ?_⟩).symm
          exact hnone x (List.mem_append_left _ hx) (hpre x hx)
        · exact hg.symm

/-- An update whose first match is looked up by a coarser view of the rows commutes
with taking that view. -/
theorem map_upsertFirst (f : α → β) (p : β → Bool) (a : α) (l : List α) :
    (upsertFirst (fun x => p (f x)) a l).map f = upsertFirst p (f a) (l.map f) := by
  induction l with
  | nil => rfl
  | cons y ys ih =>
      simp only [upsertFirst, List.map_cons]
      split
      · rfl
      · rw [List.map_cons, ih]

end V4WithV6Nh
