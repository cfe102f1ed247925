import V4WithV6Nh.Run

/-!
# A Program over Several Lifetimes

A service is started, does its work in passes, and ends in an orderly way or is killed.
What it remembers lives as long as the process; the world it works on, its files among
that, outlives it and is changed by others at any time. `Program` is such a service,
`Program.Turn` its events, and a `Run` of them is a history of any number of lifetimes.

`Program.always_pass_iff` is the rule for a property that every pass of a history is to
have: it is enough to know for a single pass exactly when it has the property.
`Program.world_invariant` is the rule for a property of the world that survives every
lifetime, and `Program.log_invariant` for one that relates the world to what the passes of
the whole history have logged. A log is bookkeeping of a proof: the program does not see it.
-/

namespace V4WithV6Nh

/-- A program with configurations `κ`, faults of one pass `γ`, a memory `δ` and a world
`σ`. -/
structure Program (κ γ δ σ : Type*) where
  /-- The memory after a start. -/
  fresh : κ → δ
  /-- One pass. -/
  pass : γ → δ → σ → δ × σ
  /-- The orderly end. -/
  stop : γ → δ → σ → σ
  /-- What others may make of the world. -/
  Others : σ → σ → Prop

/-- What happens to a program. -/
inductive LifeEvent (κ γ : Type*)
  | start (cfg : κ)
  | pass (calls : γ)
  | stop (calls : γ)
  | kill
  | others

namespace Program

variable {κ γ δ σ : Type*} {P : Program κ γ δ σ} {J C : γ → δ → σ → Prop}

/-- One event in the life of a program; without a memory it is not running. -/
def Turn (P : Program κ γ δ σ) (s : Option δ × σ) (e : LifeEvent κ γ) (s' : Option δ × σ) :
    Prop :=
  match s.1, e with
  | none, .start cfg => s' = (some (P.fresh cfg), s.2)
  | some d, .pass calls => s' = (some (P.pass calls d s.2).1, (P.pass calls d s.2).2)
  | some d, .stop calls => s' = (none, P.stop calls d s.2)
  | some _, .kill => s' = (none, s.2)
  | _, .others => s'.1 = s.1 ∧ P.Others s.2 s'.2
  | _, _ => False

/-- The event is no pass, or a pass with the property `J`. -/
def AtPass (J : γ → δ → σ → Prop) (s : Option δ × σ) (e : LifeEvent κ γ) : Prop :=
  ∀ d calls, s.1 = some d → e = .pass calls → J calls d s.2

/-- The histories whose passes all have one of two properties that come to the same. -/
theorem always_pass_iff (h : ∀ calls d w, J calls d w ↔ C calls d w)
    {s s' : Option δ × σ} {es : List (LifeEvent κ γ)} :
    Run (fun s e s' => P.Turn s e s' ∧ AtPass J s e) s es s' ↔
      Run (fun s e s' => P.Turn s e s' ∧ AtPass C s e) s es s' := by
  constructor
  · exact fun hrun => hrun.mono fun _ _ _ ⟨hturn, hJ⟩ =>
      ⟨hturn, fun d calls hd he => (h calls d _).mp (hJ d calls hd he)⟩
  · exact fun hrun => hrun.mono fun _ _ _ ⟨hturn, hC⟩ =>
      ⟨hturn, fun d calls hd he => (h calls d _).mpr (hC d calls hd he)⟩

/-- A pass has faults in `K`, and others change the world as `O` allows. -/
def Meets (K : γ → Prop) (O : σ → σ → Prop) (s : Option δ × σ) (e : LifeEvent κ γ)
    (s' : Option δ × σ) : Prop :=
  (∀ calls, e = .pass calls → K calls) ∧ (e = .others → O s.2 s'.2)

/-- Where the world after an event comes from. -/
theorem world_cases {s s' : Option δ × σ} {e : LifeEvent κ γ} (h : P.Turn s e s') :
    (∃ d calls, s.1 = some d ∧ e = .pass calls ∧ s'.2 = (P.pass calls d s.2).2) ∨
    (∃ d calls, s.1 = some d ∧ e = .stop calls ∧ s'.2 = P.stop calls d s.2) ∨
    e = .others ∨
    ((∃ cfg, e = .start cfg) ∨ e = .kill) ∧ s'.2 = s.2 := by
  obtain ⟨m, w⟩ := s
  cases m with
  | none =>
      cases e with
      | start cfg =>
          obtain rfl : s' = (some (P.fresh cfg), w) := h
          exact Or.inr (Or.inr (Or.inr ⟨Or.inl ⟨cfg, rfl⟩, rfl⟩))
      | others => exact Or.inr (Or.inr (Or.inl rfl))
      | pass => exact h.elim
      | stop => exact h.elim
      | kill => exact h.elim
  | some d =>
      cases e with
      | start cfg => exact h.elim
      | pass calls =>
          obtain rfl : s' = (some (P.pass calls d w).1, (P.pass calls d w).2) := h
          exact Or.inl ⟨d, calls, rfl, rfl, rfl⟩
      | stop calls =>
          obtain rfl : s' = (none, P.stop calls d w) := h
          exact Or.inr (Or.inl ⟨d, calls, rfl, rfl, rfl⟩)
      | kill =>
          obtain rfl : s' = (none, w) := h
          exact Or.inr (Or.inr (Or.inr ⟨Or.inr rfl, rfl⟩))
      | others => exact Or.inr (Or.inr (Or.inl rfl))

/-- **What outlives every lifetime**: a property of the world that passes, the orderly end
and others keep. -/
theorem world_invariant {K : γ → Prop} {O : σ → σ → Prop} {I : σ → Prop}
    (hpass : ∀ calls d w, K calls → I w → I (P.pass calls d w).2)
    (hstop : ∀ calls d w, I w → I (P.stop calls d w))
    (hothers : ∀ w w', O w w' → I w → I w') {s s' : Option δ × σ}
    {es : List (LifeEvent κ γ)}
    (hrun : Run (fun s e s' => P.Turn s e s' ∧ Meets K O s e s') s es s') (hs : I s.2) :
    I s'.2 := by
  refine hrun.invariant (I := fun s => I s.2) ?_ hs
  rintro s e s' h ⟨hturn, hK, hO⟩
  obtain ⟨d, calls, -, rfl, hw⟩ | ⟨d, calls, -, rfl, hw⟩ | rfl | ⟨-, hw⟩ := world_cases hturn
  · rw [hw]
    exact hpass calls d s.2 (hK calls rfl) h
  · rw [hw]
    exact hstop calls d s.2 h
  · exact hothers s.2 s'.2 (hO rfl) h
  · rw [hw]
    exact h

section Log

variable {ω : Type*} {log : γ → δ → σ → List ω}

/-- What an event logs, if a pass logs what `log` says. -/
def logged (log : γ → δ → σ → List ω) (s : Option δ × σ) (e : LifeEvent κ γ) : List ω :=
  match s.1, e with
  | some d, .pass calls => log calls d s.2
  | _, _ => []

/-- An event, with the log of the history beside it, newest first. -/
def LogTurn (P : Program κ γ δ σ) (log : γ → δ → σ → List ω) (s : (Option δ × σ) × List ω)
    (e : LifeEvent κ γ) (s' : (Option δ × σ) × List ω) : Prop :=
  P.Turn s.1 e s'.1 ∧ s'.2 = logged log s.1 e ++ s.2

/-- Only a pass logs. -/
theorem logged_eq_nil {s : Option δ × σ} {e : LifeEvent κ γ} (h : ∀ calls, e ≠ .pass calls) :
    logged log s e = [] := by
  unfold logged
  split
  · exact absurd rfl (h _)
  · rfl

/-- **What a history keeps between the world and its log**: a property that passes with
what they log, the orderly end and others keep. -/
theorem log_invariant {K : γ → Prop} {O : σ → σ → Prop} {I : σ → List ω → Prop}
    (hpass : ∀ calls d w past, K calls → I w past → I (P.pass calls d w).2 (log calls d w ++ past))
    (hstop : ∀ calls d w past, I w past → I (P.stop calls d w) past)
    (hothers : ∀ w w' past, O w w' → I w past → I w' past) {s s' : (Option δ × σ) × List ω}
    {es : List (LifeEvent κ γ)}
    (hrun : Run (fun s e s' => P.LogTurn log s e s' ∧ Meets K O s.1 e s'.1) s es s')
    (hs : I s.1.2 s.2) : I s'.1.2 s'.2 := by
  refine hrun.invariant (I := fun s => I s.1.2 s.2) ?_ hs
  rintro ⟨s, past⟩ e ⟨s', past'⟩ h ⟨⟨hturn, hlog⟩, hK, hO⟩
  simp only at hturn hlog h hK hO
  obtain ⟨d, calls, hd, rfl, hw⟩ | ⟨d, calls, -, rfl, hw⟩ | rfl | ⟨he, hw⟩ := world_cases hturn
  · have hlogged : logged log s (.pass calls : LifeEvent κ γ) = log calls d s.2 := by
      unfold logged
      rw [hd]
    rw [hlog, hlogged, hw]
    exact hpass calls d s.2 past (hK calls rfl) h
  · rw [hlog, logged_eq_nil (by simp), hw]
    exact hstop calls d s.2 past h
  · rw [hlog, logged_eq_nil (by simp)]
    exact hothers s.2 s'.2 past (hO rfl) h
  · have hnot : ∀ calls, e ≠ .pass calls := by
      rintro calls rfl
      rcases he with ⟨cfg, hcfg⟩ | hkill
      · cases hcfg
      · cases hkill
    rw [hlog, logged_eq_nil hnot, hw]
    exact h

end Log

end Program

end V4WithV6Nh
