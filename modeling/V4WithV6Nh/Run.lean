import Mathlib.Algebra.BigOperators.Group.List.Basic
import Mathlib.Algebra.Ring.Nat
import Mathlib.Data.List.Basic
import Mathlib.Data.List.Induction

/-!
# Labelled Runs of a Transition Relation

A program that reacts to events is a relation `R s e s'`: in state `s`, event `e` may
lead to state `s'`. `Run R s es s'` chains such steps along the list of events `es`,
oldest first. Nothing here knows what the states or the events are.

The rules a verification uses are

* `Run.invariant`: what every step preserves, every run preserves;
* `Run.append`, `Run.snoc`: runs compose;
* `Run.mono`: a run of a smaller relation is a run of a larger one;
* `Run.simulate`: where an abstract relation follows every step, it follows every run;
* `Run.since`: a condition that holds at the end of a run, and did not at its start, holds since
  a step that made it hold;
* `Run.view_eq`: a view of the state that events write has what was written last;
* `Run.countP_add_le`: where every event of a kind uses up a supply that other events add to,
  a run has no more of them than the supply allows;
* `Run.always_iff`: where a step is as wanted exactly when it meets a condition, the runs
  that are as wanted throughout are the runs whose steps all meet the condition.

A condition on the steps of a run is written into the relation: a run whose steps all
meet `C` is a `Run (fun s e s' => C s e ∧ R s e s')`.
-/

namespace V4WithV6Nh

variable {σ ε : Type*} {R R' : σ → ε → σ → Prop}

/-- The runs of a labelled transition relation, with their events oldest first. -/
inductive Run (R : σ → ε → σ → Prop) : σ → List ε → σ → Prop
  | nil (s : σ) : Run R s [] s
  | cons {s s' s'' : σ} {e : ε} {es : List ε} :
      R s e s' → Run R s' es s'' → Run R s (e :: es) s''

namespace Run

/-- One step is a run. -/
theorem single {s s' : σ} {e : ε} (h : R s e s') : Run R s [e] s' :=
  cons h (nil s')

/-- Runs compose. -/
theorem append {s s' s'' : σ} {es es' : List ε} (h : Run R s es s')
    (h' : Run R s' es' s'') : Run R s (es ++ es') s'' := by
  induction h with
  | nil s => exact h'
  | cons hs _ ih => exact cons hs (ih h')

/-- A run extends by one step at its end. -/
theorem snoc {s s' s'' : σ} {es : List ε} {e : ε} (h : Run R s es s')
    (hs : R s' e s'') : Run R s (es ++ [e]) s'' :=
  h.append (single hs)

/-- The empty run does not move. -/
theorem of_nil {s s' : σ} (h : Run R s [] s') : s' = s := by
  cases h with
  | nil => rfl

/-- A run splits where its events do. -/
theorem of_append {s s'' : σ} {es es' : List ε} (h : Run R s (es ++ es') s'') :
    ∃ s', Run R s es s' ∧ Run R s' es' s'' := by
  induction es generalizing s with
  | nil => exact ⟨s, nil s, h⟩
  | cons e es ih =>
      cases h with
      | cons he htail =>
          obtain ⟨s', hes, hes'⟩ := ih htail
          exact ⟨s', cons he hes, hes'⟩

/-- A run of `R` is a run of every relation that contains the steps of `R` with its events. -/
theorem mono_of_mem {s s' : σ} {es : List ε} (hR : ∀ s, ∀ e ∈ es, ∀ s', R s e s' → R' s e s')
    (h : Run R s es s') : Run R' s es s' := by
  induction h with
  | nil s => exact nil s
  | cons hs _ ih =>
      exact cons (hR _ _ List.mem_cons_self _ hs)
        (ih fun s e he => hR s e (List.mem_cons_of_mem _ he))

/-- A run of `R` is a run of every relation that contains `R`. -/
theorem mono (hR : ∀ s e s', R s e s' → R' s e s') {s s' : σ} {es : List ε}
    (h : Run R s es s') : Run R' s es s' :=
  h.mono_of_mem fun s e _ => hR s e

/-- **The invariant rule**: what holds at the start and is preserved by every step
holds at the end of every run. -/
theorem invariant {I : σ → Prop} (hstep : ∀ s e s', I s → R s e s' → I s')
    {s s' : σ} {es : List ε} (h : Run R s es s') (hs : I s) : I s' := by
  induction h with
  | nil s => exact hs
  | cons he _ ih => exact ih (hstep _ _ _ hs he)

/-- **The simulation rule**: if an abstract relation follows every step from a state in an
invariant, then it follows every run. -/
theorem simulate {τ α : Type*} {A : τ → α → τ → Prop} (abs : σ → τ) {I : σ → Prop}
    (hstep : ∀ s e s', I s → R s e s' → I s' ∧ ∃ a, A (abs s) a (abs s')) {s s' : σ}
    {es : List ε} (h : Run R s es s') (hs : I s) : ∃ as, Run A (abs s) as (abs s') := by
  induction h with
  | nil s => exact ⟨[], nil _⟩
  | cons he _ ih =>
      obtain ⟨hs', a, ha⟩ := hstep _ _ _ hs he
      obtain ⟨as, has⟩ := ih hs'
      exact ⟨a :: as, cons ha has⟩

/-- What every step says of its event, a run says of its events. -/
theorem forall_mem {p : ε → Prop} (hp : ∀ s e s', R s e s' → p e) {s s' : σ} {es : List ε}
    (h : Run R s es s') : ∀ e ∈ es, p e := by
  induction h with
  | nil s => exact nofun
  | cons he _ ih => exact List.forall_mem_cons.mpr ⟨hp _ _ _ he, ih⟩

/-- **The last step of a kind**: if only steps of the kind `K` lead from outside of `J` into it,
and any other step within `J` is one of `C`, then a run that ends in `J` splits at the last step
of the kind. -/
theorem since {J : σ → Prop} {K C : σ → ε → σ → Prop}
    (hstep : ∀ s e s', R s e s' → J s' → K s e s' ∨ J s ∧ C s e s') {s₀ s : σ} {es : List ε}
    (h : Run R s₀ es s) (h₀ : ¬ J s₀) (hs : J s) :
    ∃ es₁ e es₂ t t', es = es₁ ++ e :: es₂ ∧ Run R s₀ es₁ t ∧ R t e t' ∧ K t e t' ∧
      Run (fun s e s' => R s e s' ∧ C s e s') t' es₂ s := by
  induction es using List.reverseRecOn generalizing s with
  | nil =>
      obtain rfl := h.of_nil
      exact absurd hs h₀
  | append_singleton es e ih =>
      obtain ⟨m, hes, hlast⟩ := h.of_append
      have he : R m e s := by
        cases hlast with
        | cons he hnil =>
            obtain rfl := hnil.of_nil
            exact he
      rcases hstep m e s he hs with hK | ⟨hm, hC⟩
      · exact ⟨es, e, [], m, s, rfl, hes, he, hK, nil s⟩
      · obtain ⟨es₁, f, es₂, t, t', rfl, ht, hf, hK, hrest⟩ := ih hes hm
        exact ⟨es₁, f, es₂ ++ [e], t, t', by simp, ht, hf, hK, hrest.snoc ⟨he, hC⟩⟩

/-- **The counting rule**: let `f` be a supply. If every event that is counted takes one from
it, and an event `e` adds at most `c e`, then a run counts no more than it had and was given. -/
theorem countP_add_le {I : σ → Prop} {p : ε → Bool} {f : σ → ℕ} {c : ε → ℕ}
    (hstep : ∀ s e s', I s → R s e s' → I s' ∧ (p e).toNat + f s' ≤ f s + c e) {s s' : σ}
    {es : List ε} (h : Run R s es s') (hs : I s) :
    es.countP p + f s' ≤ f s + (es.map c).sum := by
  induction h with
  | nil s => simp
  | @cons s s' s'' e es he _ ih =>
      obtain ⟨hs', hone⟩ := hstep _ _ _ hs he
      have hih := ih hs'
      have hhead : (e :: es).countP p = (p e).toNat + es.countP p := by
        rw [List.countP_cons, Nat.add_comm]
        cases p e <;> rfl
      rw [hhead, List.map_cons, List.sum_cons]
      omega

/-- The same where nothing is added. -/
theorem countP_le {I : σ → Prop} {p : ε → Bool} {f : σ → ℕ}
    (hstep : ∀ s e s', I s → R s e s' → I s' ∧ (p e).toNat + f s' ≤ f s) {s s' : σ}
    {es : List ε} (h : Run R s es s') (hs : I s) : es.countP p ≤ f s := by
  have hcount := countP_add_le (c := fun _ => 0) hstep h hs
  have hzero : (es.map fun _ => 0).sum = 0 := List.sum_eq_zero (by simp)
  omega

/-- **The last writer**: if every step leaves in a view of the state what its event writes
there, or else what was there, then a run leaves what was written last. -/
theorem view_eq {β : Type*} {I : σ → Prop} {view : σ → β} {wr : ε → Option β}
    (hstep : ∀ s e s', I s → R s e s' → I s' ∧ view s' = (wr e).getD (view s)) {s s' : σ}
    {es : List ε} (h : Run R s es s') (hs : I s) :
    view s' = ((es.filterMap wr).getLast?).getD (view s) := by
  induction h with
  | nil s => rfl
  | @cons s s' s'' e es he _ ih =>
      obtain ⟨hs', hview⟩ := hstep _ _ _ hs he
      rw [ih hs', hview]
      cases he : wr e with
      | none => rw [List.filterMap_cons_none he, Option.getD_none]
      | some b =>
          rw [List.filterMap_cons_some he, Option.getD_some]
          cases es.filterMap wr with
          | nil => rfl
          | cons c cs => rw [List.getLast?_cons_cons, List.getLast?_cons, Option.getD_some,
              Option.getD_some]

/-- **The exact condition of a property of steps**: let `J` be what is wanted of every
step and `I` an invariant that it keeps. If a step from a state in `I` is as wanted
exactly when it meets `C`, then the runs whose steps are all as wanted are the runs whose
steps all meet `C`. -/
theorem always_iff {I : σ → Prop} {J : σ → ε → σ → Prop} {C : σ → ε → Prop}
    (hJ : ∀ s e s', I s → R s e s' → J s e s' → I s')
    (hstep : ∀ s e s', I s → R s e s' → (J s e s' ↔ C s e)) {s s' : σ} {es : List ε}
    (hs : I s) :
    Run (fun s e s' => R s e s' ∧ J s e s') s es s' ↔
      Run (fun s e s' => R s e s' ∧ C s e) s es s' := by
  induction es generalizing s with
  | nil =>
      constructor
      · intro h
        obtain rfl := of_nil h
        exact nil _
      · intro h
        obtain rfl := of_nil h
        exact nil _
  | cons e es ih =>
      constructor
      · intro h
        cases h with
        | cons he htail =>
            have htail' := (ih (hJ _ _ _ hs he.1 he.2)).mp htail
            exact cons ⟨he.1, (hstep _ _ _ hs he.1).mp he.2⟩ htail'
      · intro h
        cases h with
        | cons he htail =>
            have hwanted := (hstep _ _ _ hs he.1).mpr he.2
            exact cons ⟨he.1, hwanted⟩ ((ih (hJ _ _ _ hs he.1 hwanted)).mpr htail)

end Run

/-- The last value that is written is that of an event behind which nothing is written. -/
theorem getLast?_filterMap_eq_some_iff {β : Type*} {wr : ε → Option β} {es : List ε} {b : β} :
    (es.filterMap wr).getLast? = some b ↔
      ∃ es₁ e es₂, es = es₁ ++ e :: es₂ ∧ wr e = some b ∧ ∀ e ∈ es₂, wr e = none := by
  rw [List.getLast?_filterMap, List.findSome?_eq_some_iff]
  constructor
  · rintro ⟨l₁, e, l₂, hsplit, he, hnone⟩
    refine ⟨l₂.reverse, e, l₁.reverse, ?_, he, fun x hx => hnone x (List.mem_reverse.mp hx)⟩
    rw [← List.reverse_reverse es, hsplit, List.reverse_append, List.reverse_cons,
      List.append_assoc]
    rfl
  · rintro ⟨es₁, e, es₂, rfl, he, hnone⟩
    refine ⟨es₂.reverse, e, es₁.reverse, ?_, he, fun x hx => hnone x (List.mem_reverse.mp hx)⟩
    rw [List.reverse_append, List.reverse_cons, List.append_assoc]
    rfl

end V4WithV6Nh
