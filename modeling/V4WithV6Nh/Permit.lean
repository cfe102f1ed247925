import Mathlib.Data.List.Induction

/-!
# One-Shot Permits along a Log

Some entries of a log grant a permit, with the time from which it may be used; a later
grant replaces an earlier one. Other entries spend it: they use it, or revoke it. After a
log there is the permit of its last grant if nothing has spent it since, `last_grant`.

A log is `Timely` if every use finds a permit that is due. Then there is a grant between
any entry that spends and the next use (`Timely.grant_between`), a use comes no earlier
than the last grant allows (`Timely.due`), and there are no more uses than grants
(`Timely.count_le`).
-/

namespace V4WithV6Nh

/-- What the entries of a log do to a permit. -/
structure PermitRules (α : Type*) where
  /-- The entry grants a permit from the given time on. -/
  grants : α → Option ℕ
  /-- The entry uses or revokes the permit. -/
  spends : α → Bool
  /-- The entry uses the permit, at the given time. -/
  uses : α → Option ℕ
  grants_of_spends : ∀ a, spends a = true → grants a = none
  spends_of_uses : ∀ a, uses a ≠ none → spends a = true

namespace PermitRules

variable {α : Type*} {r : PermitRules α} {log more a b : List α} {x y : α} {d t : ℕ}

/-- The permit after one entry. -/
def next (r : PermitRules α) (permit : Option ℕ) (x : α) : Option ℕ :=
  match r.grants x with
  | some d => some d
  | none => if r.spends x then none else permit

/-- The permit after a log. -/
def after (r : PermitRules α) (log : List α) : Option ℕ := log.foldl r.next none

/-- The log continues with entries that neither grant nor spend. -/
def Idle (r : PermitRules α) (log : List α) : Prop :=
  ∀ x ∈ log, r.grants x = none ∧ r.spends x = false

/-- Every use finds a permit that is due. -/
def Timely (r : PermitRules α) (log : List α) : Prop :=
  ∀ a x b, log = a ++ x :: b → ∀ t, r.uses x = some t → ∃ d, r.after a = some d ∧ d ≤ t

/-- The permit after one more entry. -/
theorem after_append_singleton (r : PermitRules α) (log : List α) (x : α) :
    r.after (log ++ [x]) = r.next (r.after log) x := by
  rw [after, List.foldl_append]
  rfl

/-- An entry that spends leaves no permit. -/
theorem next_of_spends (h : r.spends x = true) (permit : Option ℕ) :
    r.next permit x = none := by
  rw [next, r.grants_of_spends x h, h]
  rfl

/-- **The permit after a log is that of its last grant**, which nothing has spent. -/
theorem last_grant (h : r.after log = some d) :
    ∃ a x b, log = a ++ x :: b ∧ r.grants x = some d ∧ r.Idle b := by
  induction log using List.reverseRecOn with
  | nil => cases h
  | append_singleton log x ih =>
      rw [after_append_singleton, next] at h
      cases hx : r.grants x with
      | some d' =>
          rw [hx] at h
          obtain rfl := Option.some.inj h
          exact ⟨log, x, [], rfl, hx, fun y hy => by cases hy⟩
      | none =>
          rw [hx] at h
          simp only at h
          split at h
          · cases h
          · rename_i hspends
            obtain ⟨a, y, b, rfl, hy, hidle⟩ := ih h
            refine ⟨a, y, b ++ [x], by simp, hy, List.forall_mem_append.mpr
              ⟨hidle, List.forall_mem_singleton.mpr ⟨hx, (Bool.not_eq_true _).mp hspends⟩⟩⟩

/-- A part of a timely log is timely. -/
theorem Timely.of_append (h : r.Timely (log ++ more)) : r.Timely log := by
  rintro a x b rfl t ht
  exact h a x (b ++ more) (by simp) t ht

/-- One more entry keeps a log timely if it does not use a permit before it is due. -/
theorem Timely.append_singleton (h : r.Timely log)
    (hx : ∀ t, r.uses x = some t → ∃ d, r.after log = some d ∧ d ≤ t) :
    r.Timely (log ++ [x]) := by
  intro a y b hlog t ht
  rcases List.eq_nil_or_concat b with rfl | ⟨b', z, rfl⟩
  · obtain ⟨rfl, hxy⟩ := List.append_inj' hlog rfl
    obtain rfl := List.singleton_inj.mp hxy
    exact hx t ht
  · rw [List.concat_eq_append, ← List.cons_append, ← List.append_assoc] at hlog
    obtain ⟨rfl, -⟩ := List.append_inj' hlog rfl
    exact h a y b' rfl t ht

/-- **A use comes no earlier than the last grant allows**, and nothing has spent that grant
since. -/
theorem Timely.due (h : r.Timely (log ++ x :: more)) (hx : r.uses x = some t) :
    ∃ a y b d, log = a ++ y :: b ∧ r.grants y = some d ∧ r.Idle b ∧ d ≤ t := by
  obtain ⟨d, hd, hle⟩ := h log x more rfl t hx
  obtain ⟨a, y, b, hlog, hy, hidle⟩ := last_grant hd
  exact ⟨a, y, b, d, hlog, hy, hidle, hle⟩

/-- **There is a grant between an entry that spends and the next use.** -/
theorem Timely.grant_between (h : r.Timely (a ++ x :: log ++ y :: more))
    (hx : r.spends x = true) (hy : r.uses y ≠ none) : ∃ z ∈ log, r.grants z ≠ none := by
  obtain ⟨t, ht⟩ := Option.ne_none_iff_exists'.mp hy
  obtain ⟨a', z, b', d, hlog, hz, hidle, -⟩ := h.due ht
  -- the last grant before the use cannot come before `x`, which would have spent it
  rcases List.append_eq_append_iff.mp hlog with ⟨c, rfl, hc⟩ | ⟨c, rfl, hc⟩
  · cases c with
    | nil =>
        obtain ⟨rfl, -⟩ := List.cons.inj hc
        rw [r.grants_of_spends x hx] at hz
        cases hz
    | cons w c =>
        obtain ⟨rfl, rfl⟩ := List.cons.inj hc
        refine ⟨z, List.mem_append_right c List.mem_cons_self, ?_⟩
        rw [hz]
        exact Option.some_ne_none d
  · cases c with
    | nil =>
        obtain ⟨rfl, -⟩ := List.cons.inj hc
        rw [r.grants_of_spends z hx] at hz
        cases hz
    | cons w c =>
        obtain ⟨rfl, rfl⟩ := List.cons.inj hc
        have hidle' := (hidle x (List.mem_append_right c List.mem_cons_self)).2
        rw [hx] at hidle'
        cases hidle'

/-- 1 if there is a permit. -/
def held (permit : Option ℕ) : ℕ := if permit.isSome then 1 else 0

/-- **There are no more uses than grants** from some point on, but for the permit that was
there. -/
theorem Timely.count_le (h : r.Timely (log ++ more)) :
    more.countP (fun x => (r.uses x).isSome) + held (r.after (log ++ more)) ≤
      more.countP (fun x => (r.grants x).isSome) + held (r.after log) := by
  induction more using List.reverseRecOn with
  | nil => simp
  | append_singleton more x ih =>
      rw [← List.append_assoc] at h ⊢
      have hih := ih h.of_append
      rw [List.countP_append, List.countP_append, after_append_singleton,
        List.countP_singleton, List.countP_singleton]
      cases huse : r.uses x with
      | some t =>
          have hspends := r.spends_of_uses x (by rw [huse]; exact Option.some_ne_none t)
          obtain ⟨d, hd, -⟩ := h (log ++ more) x [] rfl t huse
          rw [hd] at hih
          rw [next_of_spends hspends, r.grants_of_spends x hspends]
          simpa [held] using hih
      | none =>
          cases hgrant : r.grants x with
          | some d =>
              rw [next, hgrant]
              simp only [held, Option.isSome_none, Option.isSome_some, if_true,
                Bool.false_eq_true, if_false] at hih ⊢
              omega
          | none =>
              rw [next, hgrant]
              simp only [Option.isSome_none, Bool.false_eq_true, if_false]
              split
              · simp only [held, Option.isSome_none, Bool.false_eq_true, if_false] at hih ⊢
                omega
              · omega

end PermitRules

end V4WithV6Nh
