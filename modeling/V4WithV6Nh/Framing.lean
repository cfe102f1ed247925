import Mathlib.Data.List.Basic

/-!
# Cutting a Stream at a Separator

A program that reads a stream in pieces and handles what a separator ends keeps the rest in
a buffer: `cut` takes the first such line out of it. What it has handled and what it keeps
are a decomposition of what it has read, `Consumed`, and when the buffer has no separator
left the decomposition is the only one, `Framed.unique`. So it does not depend on the
pieces in which the stream was read.
-/

namespace V4WithV6Nh

variable {α : Type*} {sep : α} {s t rest rest' l : List α} {lines lines' : List (List α)}

/-- The stream consists of lines, each with the separator behind it, and a rest. -/
def Consumed (sep : α) (s : List α) (lines : List (List α)) (rest : List α) : Prop :=
  s = lines.flatMap (fun l => l ++ [sep]) ++ rest ∧ ∀ l ∈ lines, sep ∉ l

/-- The rest has no separator. -/
def Framed (sep : α) (s : List α) (lines : List (List α)) (rest : List α) : Prop :=
  Consumed sep s lines rest ∧ sep ∉ rest

/-- What was read before any line was taken out. -/
theorem consumed_nil (sep : α) (s : List α) : Consumed sep s [] s :=
  ⟨rfl, fun l hl => by cases hl⟩

/-- More of the stream goes to the rest. -/
theorem Consumed.read (h : Consumed sep s lines rest) (t : List α) :
    Consumed sep (s ++ t) lines (rest ++ t) := by
  obtain ⟨rfl, hlines⟩ := h
  exact ⟨List.append_assoc _ _ _, hlines⟩

/-- Lines of the rest follow those before it. -/
theorem Consumed.append (h : Consumed sep s lines rest) (h' : Consumed sep rest lines' rest') :
    Consumed sep s (lines ++ lines') rest' := by
  obtain ⟨rfl, hlines⟩ := h
  obtain ⟨rfl, hlines'⟩ := h'
  refine ⟨?_, List.forall_mem_append.mpr ⟨hlines, hlines'⟩⟩
  rw [List.flatMap_append, List.append_assoc]

/-- The first line of a stream ends at its first separator. -/
theorem eq_of_append_cons_eq {l' t' : List α} (hl : sep ∉ l) (hl' : sep ∉ l')
    (heq : l ++ sep :: t = l' ++ sep :: t') : l = l' ∧ t = t' := by
  induction l generalizing l' with
  | nil =>
      cases l' with
      | nil => exact ⟨rfl, (List.cons.inj heq).2⟩
      | cons x l' =>
          obtain ⟨rfl, -⟩ := List.cons.inj heq
          exact absurd List.mem_cons_self hl'
  | cons x l ih =>
      cases l' with
      | nil =>
          obtain ⟨rfl, -⟩ := List.cons.inj heq
          exact absurd List.mem_cons_self hl
      | cons y l' =>
          obtain ⟨rfl, htail⟩ := List.cons.inj heq
          obtain ⟨rfl, rfl⟩ := ih (fun hm => hl (List.mem_cons_of_mem x hm))
            (fun hm => hl' (List.mem_cons_of_mem x hm)) htail
          exact ⟨rfl, rfl⟩

/-- **There is one decomposition** into lines and a rest without separator. -/
theorem Framed.unique (h : Framed sep s lines rest) (h' : Framed sep s lines' rest') :
    lines = lines' ∧ rest = rest' := by
  induction lines generalizing s lines' with
  | nil =>
      obtain ⟨⟨hs, -⟩, hrest⟩ := h
      obtain ⟨⟨heq, -⟩, -⟩ := h'
      rw [List.flatMap_nil, List.nil_append] at hs
      cases lines' with
      | nil => exact ⟨rfl, hs.symm.trans heq⟩
      | cons l' lines' =>
          have hmem : sep ∈ rest := by
            rw [← hs, heq]
            simp
          exact absurd hmem hrest
  | cons l lines ih =>
      obtain ⟨⟨rfl, hlines⟩, hrest⟩ := h
      obtain ⟨⟨heq, hlines'⟩, hrest'⟩ := h'
      cases lines' with
      | nil =>
          have hmem : sep ∈ rest' := by
            rw [List.flatMap_nil, List.nil_append] at heq
            rw [← heq]
            simp
          exact absurd hmem hrest'
      | cons l' lines' =>
          rw [List.flatMap_cons, List.flatMap_cons, List.append_assoc, List.append_assoc,
            List.append_assoc, List.append_assoc] at heq
          obtain ⟨rfl, htail⟩ := eq_of_append_cons_eq (hlines l List.mem_cons_self)
            (hlines' l' List.mem_cons_self) heq
          obtain ⟨rfl, rfl⟩ := ih
            ⟨⟨rfl, fun x hx => hlines x (List.mem_cons_of_mem l hx)⟩, hrest⟩
            ⟨⟨htail, fun x hx => hlines' x (List.mem_cons_of_mem l hx)⟩, hrest'⟩
          exact ⟨rfl, rfl⟩

/-! ### Taking out a line -/

variable [DecidableEq α]

/-- The first line, and what comes after its separator; nothing if there is none. -/
def cut (sep : α) : List α → Option (List α × List α)
  | [] => none
  | x :: xs => if x = sep then some ([], xs) else (cut sep xs).map fun c => (x :: c.1, c.2)

/-- What `cut` takes out is a line. -/
theorem consumed_of_cut (h : cut sep s = some (l, rest)) : Consumed sep s [l] rest := by
  induction s generalizing l with
  | nil => cases h
  | cons x xs ih =>
      rw [cut] at h
      split at h
      · rename_i hx
        obtain ⟨rfl, rfl⟩ := Prod.mk.inj (Option.some.inj h)
        subst hx
        exact ⟨rfl, fun l hl => by
          rw [List.mem_singleton.mp hl]
          exact List.not_mem_nil⟩
      · rename_i hx
        obtain ⟨⟨l', rest'⟩, hcut, heq⟩ := Option.map_eq_some_iff.mp h
        obtain ⟨rfl, rfl⟩ := Prod.mk.inj heq
        obtain ⟨rfl, hl'⟩ := ih hcut
        refine ⟨rfl, fun l hl hsep => ?_⟩
        rw [List.mem_singleton.mp hl] at hsep
        rcases List.mem_cons.mp hsep with rfl | hsep
        · exact hx rfl
        · exact hl' l' (List.mem_singleton_self l') hsep

/-- Nothing is taken out of what has no separator. -/
theorem not_mem_of_cut (h : cut sep s = none) : sep ∉ s := by
  induction s with
  | nil => exact List.not_mem_nil
  | cons x xs ih =>
      rw [cut] at h
      split at h
      · cases h
      · rename_i hx
        intro hmem
        rcases List.mem_cons.mp hmem with rfl | hmem
        · exact hx rfl
        · exact ih (Option.map_eq_none_iff.mp h) hmem

/-- What comes after a line is shorter. -/
theorem length_lt_of_cut (h : cut sep s = some (l, rest)) : rest.length < s.length := by
  obtain ⟨rfl, -⟩ := consumed_of_cut h
  simp only [List.flatMap_cons, List.flatMap_nil, List.append_nil, List.length_append,
    List.length_singleton]
  omega

/-- Every stream has a decomposition. -/
theorem exists_framed (sep : α) (s : List α) : ∃ lines rest, Framed sep s lines rest := by
  induction h : s.length using Nat.strongRecOn generalizing s with
  | ind n ih =>
      cases hcut : cut sep s with
      | none => exact ⟨[], s, consumed_nil sep s, not_mem_of_cut hcut⟩
      | some c =>
          obtain ⟨l, rest⟩ := c
          obtain ⟨lines, rest', hframed⟩ := ih rest.length (h ▸ length_lt_of_cut hcut) rest rfl
          exact ⟨_, _, (consumed_of_cut hcut).append hframed.1, hframed.2⟩

/-- The lines taken out of a part of the stream are the first lines of the stream. -/
theorem Framed.prefix_of_consumed (h : Framed sep s lines rest)
    (h' : Consumed sep s lines' rest') : lines' <+: lines := by
  obtain ⟨more, tail, hframed⟩ := exists_framed sep rest'
  obtain ⟨rfl, -⟩ := h.unique ⟨h'.append hframed.1, hframed.2⟩
  exact List.prefix_append lines' more

end V4WithV6Nh
