import Mathlib.Data.List.Forall2

/-!
# Splitting a List into Tokens

`tokens p l` is the list of maximal runs of elements that do not satisfy the separator
predicate `p`, the way a scripting language splits a line on whitespace: separators in a
row count as one, and leading or trailing separators produce nothing. It is
`List.splitOnP` without the empty pieces.

`tokens_cons` and `tokens_word` compute the split of a line from its words, and
`mapM_eq_some_iff` says when pieces are all read.
-/

namespace V4WithV6Nh

variable {α : Type*} {p : α → Bool} {w l : List α} {sep : α}

/-- The maximal separator-free pieces of a list. -/
def tokens (p : α → Bool) (l : List α) : List (List α) :=
  (l.splitOnP p).filter fun w => !w.isEmpty

/-- A word: it is not empty and no element of it separates. -/
def IsWord (p : α → Bool) (w : List α) : Prop :=
  w ≠ [] ∧ ∀ x ∈ w, p x = false

/-- Words can be recognized. -/
theorem isWord_of_all {p : α → Bool} {w : List α}
    (h : (!w.isEmpty && w.all fun x => !p x) = true) : IsWord p w := by
  obtain ⟨hne, hall⟩ := Bool.and_eq_true_iff.mp h
  refine ⟨?_, fun x hx => ?_⟩
  · rintro rfl
    cases hne
  · have hx' := List.all_eq_true.mp hall x hx
    simpa using hx'

/-- The pieces of a list do not separate. -/
theorem eq_false_of_mem_splitOnP {x : α} (hw : w ∈ l.splitOnP p) (hx : x ∈ w) :
    p x = false := by
  induction l generalizing w with
  | nil =>
      rw [List.splitOnP_nil, List.mem_singleton] at hw
      subst hw
      cases hx
  | cons y ys ih =>
      rw [List.splitOnP_cons_eq_if_modifyHead] at hw
      split at hw
      · rcases List.mem_cons.mp hw with rfl | hw
        · cases hx
        · exact ih hw hx
      · rename_i hy
        cases hpieces : ys.splitOnP p with
        | nil => exact absurd hpieces (List.splitOnP_ne_nil p ys)
        | cons v vs =>
            rw [hpieces, List.modifyHead_cons] at hw
            rcases List.mem_cons.mp hw with rfl | hw
            · rcases List.mem_cons.mp hx with rfl | hx
              · exact (Bool.not_eq_true _).mp hy
              · exact ih (hpieces ▸ List.mem_cons_self) hx
            · exact ih (hpieces ▸ List.mem_cons_of_mem _ hw) hx

/-- Every token is a word. -/
theorem isWord_of_mem_tokens (hw : w ∈ tokens p l) : IsWord p w := by
  obtain ⟨hmem, hne⟩ := List.mem_filter.mp hw
  exact ⟨by simpa using hne, fun x hx => eq_false_of_mem_splitOnP hmem hx⟩

/-- Splitting at a separator splits the list there. -/
theorem tokens_append_cons (w l : List α) (hsep : p sep = true) :
    tokens p (w ++ sep :: l) = tokens p w ++ tokens p l := by
  rw [tokens, List.splitOnP_append_cons w l hsep, List.filter_append]
  rfl

/-- A word alone is one token. -/
theorem tokens_word (hw : IsWord p w) : tokens p w = [w] := by
  have hne : w.isEmpty = false := by simpa using hw.1
  rw [tokens, List.splitOnP_eq_singleton hw.2, List.filter_cons]
  simp [hne]

/-- A word in front of a separator is the first token. -/
theorem tokens_cons (hw : IsWord p w) (hsep : p sep = true) (l : List α) :
    tokens p (w ++ sep :: l) = w :: tokens p l := by
  rw [tokens_append_cons w l hsep, tokens_word hw]
  rfl

/-- A separator in front adds nothing. -/
theorem tokens_sep_cons (hsep : p sep = true) (l : List α) :
    tokens p (sep :: l) = tokens p l :=
  tokens_append_cons [] l hsep

/-- What does not have the separator lies on one side of it. -/
theorem infix_append_cons_iff {s t : List α} (hsep : sep ∉ w) :
    w <:+: s ++ sep :: t ↔ w <:+: s ∨ w <:+: t := by
  constructor
  · rintro ⟨a, b, h⟩
    rcases List.append_eq_append_iff.mp h with ⟨c, rfl, -⟩ | ⟨c, hs, ht⟩
    · exact .inl ⟨a, c, rfl⟩
    · rcases List.append_eq_append_iff.mp hs with ⟨d, rfl, rfl⟩ | ⟨d, rfl, hc⟩
      · -- the separator would be in the word, or right behind it
        cases c with
        | nil => exact .inl ⟨a, [], by simp⟩
        | cons x c =>
            obtain ⟨rfl, -⟩ := List.cons.inj ht
            exact absurd (List.mem_append_right d List.mem_cons_self) hsep
      · subst hc
        cases d with
        | nil =>
            cases w with
            | nil => exact .inl ⟨[], s, rfl⟩
            | cons x w =>
                obtain ⟨rfl, -⟩ := List.cons.inj ht
                exact absurd List.mem_cons_self hsep
        | cons x d =>
            obtain ⟨-, rfl⟩ := List.cons.inj ht
            exact .inr ⟨d, b, rfl⟩
  · rintro (h | h)
    · exact h.trans (List.prefix_append s _).isInfix
    · exact h.trans ((List.suffix_cons sep t).trans (List.suffix_append s _)).isInfix

/-- A list is read element by element. -/
theorem mapM_eq_some_iff {β : Type*} {f : α → Option β} {l : List α} {values : List β} :
    l.mapM f = some values ↔ List.Forall₂ (fun a b => f a = some b) l values := by
  induction l generalizing values with
  | nil => rw [List.mapM_nil, List.forall₂_nil_left_iff, eq_comm, Option.pure_def, Option.some_inj]
  | cons a l ih =>
      rw [List.mapM_cons, List.forall₂_cons_left_iff]
      simp only [Option.bind_eq_bind, Option.bind_eq_some_iff, Option.pure_def,
        Option.some.injEq, ih]
      constructor
      · rintro ⟨b, hb, bs, hbs, rfl⟩
        exact ⟨b, bs, hb, hbs, rfl⟩
      · rintro ⟨b, bs, hb, hbs, rfl⟩
        exact ⟨b, hb, bs, hbs, rfl⟩

/-- Then each element is read. -/
theorem exists_of_mapM_eq_some {β : Type*} {f : α → Option β} {l : List α} {values : List β}
    (h : l.mapM f = some values) : ∀ a ∈ l, ∃ b, f a = some b := by
  have hvalues := mapM_eq_some_iff.mp h
  clear h
  induction hvalues with
  | nil => exact fun a ha => by cases ha
  | cons hb _ ih => exact List.forall_mem_cons.mpr ⟨⟨_, hb⟩, ih⟩

end V4WithV6Nh
