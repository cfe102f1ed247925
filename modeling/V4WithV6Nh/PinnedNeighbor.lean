import Mathlib.Data.Option.Basic

/-!
# A Pinned Neighbour Entry

A host whose gateway has no link-layer address of its own pins one: it keeps a permanent
neighbour entry for the gateway, with the address of a router that it resolves, or that it
has stored when it resolves none. `pinAction` is the decision of one pass and
`PinTable.perform` what it does to the table and to the record of what was pinned.

The table is any type with the operations of a `PinTable`. An entry is *ours* if the
program put it there. `PinTable.not_ours_perform_iff` says exactly when a pass leaves no
such entry: a pass that pins always leaves one unless it finds the table as it wants it,
and a pass that removes acts on its record and not on the table.
-/

namespace V4WithV6Nh

/-- What a pass decides to do about the entry. -/
inductive PinAction (μ : Type*)
  | remove
  | pin (mac : μ)

variable {τ μ : Type*}

/-- The decision of a pass: pin what is resolved, else what is stored, if the gate is
open; else remove. -/
def pinAction (gate : Bool) (resolved stored : Option μ) : PinAction μ :=
  if gate then
    match resolved.or stored with
    | some mac => .pin mac
    | none => .remove
  else .remove

/-- What a decision leaves pinned. -/
def PinAction.mac : PinAction μ → Option μ
  | .pin mac => some mac
  | .remove => none

/-- Behind an open gate the resolved address is pinned, or else the stored one. -/
theorem pinAction_mac (gate : Bool) (resolved stored : Option μ) :
    (pinAction gate resolved stored).mac = if gate then resolved.or stored else none := by
  cases gate with
  | false => rfl
  | true =>
      simp only [pinAction, if_true]
      cases resolved.or stored <;> rfl

/-- A pass pins behind an open gate only, and what it has resolved, or else what is stored. -/
theorem of_pinAction_eq_pin {gate : Bool} {resolved stored : Option μ} {mac : μ}
    (h : pinAction gate resolved stored = .pin mac) :
    gate = true ∧ resolved.or stored = some mac := by
  have hmac := pinAction_mac gate resolved stored
  rw [h] at hmac
  exact Option.ite_none_right_eq_some.mp hmac.symm

/-- What a pass asks for: what it decided, unless that is in place, or there is nothing
installed to remove. -/
def PinAction.request (inPlace : μ → Bool) (installed : Bool) :
    PinAction μ → Option (PinAction μ)
  | .pin mac => if inPlace mac then none else some (.pin mac)
  | .remove => if installed then some .remove else none

/-- **What the gate decides**: with the gate open and with it closed a pass asks for the
same exactly when there is nothing to pin. -/
theorem request_eq_iff {gate gate' : Bool} {resolved stored : Option μ} {inPlace : μ → Bool}
    {installed : Bool} (hplace : ∀ mac, inPlace mac = true → installed = true) :
    (pinAction gate resolved stored).request inPlace installed =
        (pinAction gate' resolved stored).request inPlace installed ↔
      gate = gate' ∨ resolved.or stored = none := by
  have hopen : (pinAction true resolved stored).request inPlace installed =
      (pinAction false resolved stored).request inPlace installed ↔
        resolved.or stored = none := by
    cases h : resolved.or stored with
    | none => simp [pinAction, h]
    | some mac =>
        simp only [pinAction, h, if_true, Bool.false_eq_true, if_false, PinAction.request,
          reduceCtorEq, iff_false]
        cases hin : inPlace mac with
        | true => simp [hplace mac hin]
        | false => cases installed <;> simp
  cases gate <;> cases gate'
  · simp
  · rw [eq_comm, hopen]
    simp
  · rw [hopen]
    simp
  · simp

/-- The operations on a table with one pinned entry. -/
structure PinTable (τ μ : Type*) where
  pin : μ → τ → τ
  remove : τ → τ
  /-- The table shows the permanent entry for an address. -/
  shows : μ → τ → Bool
  /-- There is a permanent entry that the program put there. -/
  Ours : τ → Prop
  shows_pin : ∀ mac t, shows mac (pin mac t) = true
  ours_pin : ∀ mac t, Ours (pin mac t)
  not_ours_remove : ∀ t, ¬ Ours (remove t)

namespace PinTable

variable [DecidableEq μ]

/-- Carry out a decision; `record` is what the program believes to be pinned. -/
def perform (T : PinTable τ μ) (record : Option μ) (t : τ) : PinAction μ → Option μ × τ
  | .remove => if record.isSome then (none, T.remove t) else (none, t)
  | .pin mac =>
      if record = some mac ∧ T.shows mac t then (record, t) else (some mac, T.pin mac t)

/-- The pass has an entry to remove and removes it, or has none and pins none. -/
def Ceases (T : PinTable τ μ) (record : Option μ) (t : τ) : PinAction μ → Prop
  | .remove => record.isSome ∨ ¬ T.Ours t
  | .pin mac => (record = some mac ∧ T.shows mac t) ∧ ¬ T.Ours t

/-- **Exactly when a pass leaves no entry of ours.** -/
theorem not_ours_perform_iff (T : PinTable τ μ) (record : Option μ) (t : τ)
    (a : PinAction μ) :
    ¬ T.Ours (T.perform record t a).2 ↔ T.Ceases record t a := by
  cases a with
  | remove =>
      rw [perform, Ceases]
      split
      · rename_i hrecord
        exact iff_of_true (T.not_ours_remove t) (Or.inl hrecord)
      · rename_i hrecord
        exact ⟨Or.inr, fun h => h.resolve_left hrecord⟩
  | pin mac =>
      rw [perform, Ceases]
      split
      · rename_i hquiet
        exact ⟨fun h => ⟨hquiet, h⟩, fun h => h.2⟩
      · rename_i hquiet
        exact iff_of_false (not_not.mpr (T.ours_pin mac t)) fun h => hquiet h.1

/-- **A pass that pins leaves the table showing the entry.** -/
theorem shows_perform_pin (T : PinTable τ μ) (record : Option μ) (t : τ) (mac : μ) :
    T.shows mac (T.perform record t (.pin mac)).2 = true := by
  rw [perform]
  split
  · rename_i hquiet
    exact hquiet.2
  · exact T.shows_pin mac t

/-- **A pass that pins remembers what it pinned.** -/
theorem perform_pin_record (T : PinTable τ μ) (record : Option μ) (t : τ) (mac : μ) :
    (T.perform record t (.pin mac)).1 = some mac := by
  rw [perform]
  split
  · rename_i hquiet
    exact hquiet.1
  · rfl

/-- What a pin makes of the table, and what a table that shows the entry is like, a pass
that pins leaves. -/
theorem perform_pin_of (T : PinTable τ μ) {Q : τ → Prop} {record : Option μ} {t : τ} {mac : μ}
    (hpin : Q (T.pin mac t)) (hshows : T.shows mac t = true → Q t) :
    Q (T.perform record t (.pin mac)).2 := by
  rw [perform]
  split
  · rename_i hquiet
    exact hshows hquiet.2
  · exact hpin

end PinTable

end V4WithV6Nh
