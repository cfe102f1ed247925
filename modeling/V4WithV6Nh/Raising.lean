import Mathlib.Data.List.Basic

/-!
# Programs That May Raise

A program over a state `σ` that may raise an error `ε` returns both how it ended and the
state it left. `andThen` runs a second program if the first one did not raise, `forEach` a
program for every element of a list.

`Ends post exc o` says that `o` ends in a state with `post` if it did not raise and with
`exc` if it did. The rules compute it: `Ends.andThen` for two programs, `Ends.forEach` for
a loop with an invariant that may speak of the elements that are done.
-/

namespace V4WithV6Nh

variable {ε σ α : Type*} {post post' exc exc' : σ → Prop} {o : Except ε Unit × σ}

/-- Run `f` on the state that is left, unless an error was raised. -/
def andThen (o : Except ε Unit × σ) (f : σ → Except ε Unit × σ) : Except ε Unit × σ :=
  match o with
  | (.ok (), s) => f s
  | (.error e, s) => (.error e, s)

/-- Run a program for each element in turn; an error ends the loop. -/
def forEach (f : α → σ → Except ε Unit × σ) : List α → σ → Except ε Unit × σ
  | [], s => (.ok (), s)
  | a :: as, s => andThen (f a s) (forEach f as)

/-- The last element comes last. -/
theorem forEach_append_singleton (f : α → σ → Except ε Unit × σ) (l : List α) (a : α) (s : σ) :
    forEach f (l ++ [a]) s = andThen (forEach f l s) (f a) := by
  have hlast : ∀ s, forEach f [a] s = f a s := by
    intro s
    rw [forEach]
    obtain ⟨r, s'⟩ := f a s
    cases r <;> rfl
  induction l generalizing s with
  | nil => exact hlast s
  | cons b l ih =>
      rw [List.cons_append, forEach, forEach]
      obtain ⟨r, s'⟩ := f b s
      cases r with
      | ok u => exact ih s'
      | error e => rfl

/-- How a program ends: with `post` if it did not raise, else with `exc`. -/
def Ends (post exc : σ → Prop) (o : Except ε Unit × σ) : Prop :=
  match o with
  | (.ok (), s) => post s
  | (.error _, s) => exc s

/-- What is said may be weakened. -/
theorem Ends.mono (h : Ends post exc o) (hpost : ∀ s, post s → post' s)
    (hexc : ∀ s, exc s → exc' s) : Ends post' exc' o := by
  obtain ⟨r, s⟩ := o
  cases r with
  | ok u => exact hpost s h
  | error e => exact hexc s h

/-- Two programs in a row. -/
theorem Ends.andThen {f : σ → Except ε Unit × σ} (h : Ends post exc o)
    (hf : ∀ s, post s → Ends post' exc (f s)) : Ends post' exc (andThen o f) := by
  obtain ⟨r, s⟩ := o
  cases r with
  | ok u => exact hf s h
  | error e => exact h

/-- A program that did not raise. -/
theorem Ends.of_ok (h : Ends post exc o) (ho : o.1 = .ok ()) : post o.2 := by
  obtain ⟨r, s⟩ := o
  cases r with
  | ok u => exact h
  | error e => cases ho

/-- What is said in either case. -/
theorem ends_iff_of_same : Ends post post o ↔ post o.2 := by
  obtain ⟨r, s⟩ := o
  cases r with
  | ok u => exact Iff.rfl
  | error e => exact Iff.rfl

/-- **The rule for loops**: an invariant of the elements that are done. -/
theorem Ends.forEach {f : α → σ → Except ε Unit × σ} {I : List α → σ → Prop} {l : List α}
    (hstep : ∀ done a rest s, l = done ++ a :: rest → I done s →
      Ends (I (done ++ [a])) exc (f a s)) {s : σ} (hs : I [] s) :
    Ends (I l) exc (forEach f l s) := by
  suffices h : ∀ rest done s, l = done ++ rest → I done s →
      Ends (I l) exc (V4WithV6Nh.forEach f rest s) from h l [] s rfl hs
  intro rest
  induction rest with
  | nil =>
      intro done s hl hs
      rw [hl, List.append_nil]
      exact hs
  | cons a rest ih =>
      intro done s hl hs
      refine Ends.andThen (hstep done a rest s hl hs) fun s' hs' => ih (done ++ [a]) s' ?_ hs'
      rw [hl, List.append_assoc]
      rfl

/-- The rule for loops with an invariant that does not look at the elements. -/
theorem Ends.forEach_of_invariant {f : α → σ → Except ε Unit × σ} {I : σ → Prop} {l : List α}
    (hstep : ∀ a s, I s → Ends I exc (f a s)) {s : σ} (hs : I s) :
    Ends I exc (V4WithV6Nh.forEach f l s) :=
  Ends.forEach (I := fun _ => I) (fun _ a _ s _ h => hstep a s h) hs

end V4WithV6Nh
