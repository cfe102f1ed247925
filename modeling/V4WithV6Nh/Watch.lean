import V4WithV6Nh.Run

/-!
# A Loop that Looks Again when It Is Told To

A service keeps something in step with a world that others change. It reads the world, acts,
and rests until it is told of a change. A change is lost if the service rests although the
world is no longer what it has read.

`Watch` is such a service as far as this matters. A look takes time, and its end may change the
world: the service takes the world to be as the look has left it, and is right if nothing has
changed since the look began. `due` says that another look will begin before the service
rests, for whatever reason the service has.

* `Watch.Step`: a change makes a look due, and nothing but the beginning of a look takes
  that back.
* `Watch.untouched_of_not_due`: a service with no look due has not missed a change.
* `Watch.seen_eq`: a service that rests with no look due is right about the world.

A loop with its queues, flags and threads is compared with `Watch` by `Run.simulate`.
-/

namespace V4WithV6Nh

/-- What matters of a service that watches a world `σ`. -/
structure Watch (σ : Type*) where
  /-- The world as it is. -/
  current : σ
  /-- What the service takes the world to be. -/
  seen : σ
  /-- A look has begun and not ended. -/
  looking : Bool
  /-- Nothing has changed since the last look began. -/
  untouched : Bool
  /-- Another look will begin before the service rests. -/
  due : Bool

/-- What happens to a service that watches. -/
inductive WatchEvent (σ : Type*)
  | change (world : σ)
  | rouse
  | begin (due : Bool)
  | finish (seen now : σ) (due : Bool)
  | other

namespace Watch

variable {σ : Type*}

/-- One event. -/
def Step (w : Watch σ) (e : WatchEvent σ) (w' : Watch σ) : Prop :=
  match e with
  | .change world => w' = { w with current := world, untouched := false, due := true }
  | .rouse => w' = { w with due := true }
  | .begin due =>
      w.looking = false ∧ w' = { w with looking := true, untouched := true, due := due }
  | .finish seen now due =>
      w.looking = true ∧ (w.untouched = true → seen = now) ∧
        w' = { w with looking := false, seen := seen, current := now, due := w.due || due }
  | .other => w' = w

/-- Where no look is due nothing has changed, and where nothing has changed the service is
right about the world. -/
structure InStep (w : Watch σ) : Prop where
  untouched : w.due = false → w.untouched = true
  seen : w.untouched = true → w.looking = false → w.seen = w.current

theorem inStep_step {w w' : Watch σ} {e : WatchEvent σ} (h : w.InStep) (hstep : w.Step e w') :
    w'.InStep := by
  cases e with
  | change world =>
      obtain rfl : w' = _ := hstep
      exact ⟨nofun, nofun⟩
  | rouse =>
      obtain rfl : w' = _ := hstep
      exact ⟨nofun, h.seen⟩
  | begin due =>
      obtain ⟨-, rfl⟩ := hstep
      exact ⟨fun _ => rfl, nofun⟩
  | finish seen now due =>
      obtain ⟨-, hseen, rfl⟩ := hstep
      exact ⟨fun hdue => h.untouched (Bool.or_eq_false_iff.mp hdue).1,
        fun huntouched _ => hseen huntouched⟩
  | other =>
      obtain rfl : w' = w := hstep
      exact h

/-- A service with no look due has not missed a change. -/
theorem untouched_of_not_due {w w' : Watch σ} {es : List (WatchEvent σ)}
    (hrun : Run Step w es w') (hs : w.InStep) (hdue : w'.due = false) : w'.untouched = true := by
  have h := hrun.invariant (I := InStep) (fun _ _ _ hI hstep => inStep_step hI hstep) hs
  exact h.untouched hdue

/-- **No change is lost**: a service that rests with no look due is right about the world. -/
theorem seen_eq {w w' : Watch σ} {es : List (WatchEvent σ)} (hrun : Run Step w es w')
    (hs : w.InStep) (hrest : w'.looking = false) (hdue : w'.due = false) :
    w'.seen = w'.current := by
  have h := hrun.invariant (I := InStep) (fun _ _ _ hI hstep => inStep_step hI hstep) hs
  exact h.seen (h.untouched hdue) hrest

section Follows

variable {τ ε : Type*} {R : τ → ε → τ → Prop} {watch : τ → Watch σ} {s s' : τ} {es : List ε}

/-- A loop that `Watch` follows misses no change. -/
theorem untouched_of_follows (hfollows : ∀ s e s', R s e s' → ∃ a, Step (watch s) a (watch s'))
    (hrun : Run R s es s') (hs : (watch s).InStep) (hdue : (watch s').due = false) :
    (watch s').untouched = true := by
  obtain ⟨as, has⟩ := hrun.simulate (A := Step) watch (I := fun _ => True)
    (fun s e s' _ hstep => ⟨trivial, hfollows s e s' hstep⟩) trivial
  exact untouched_of_not_due has hs hdue

/-- It is right about the world when it rests. -/
theorem seen_eq_of_follows (hfollows : ∀ s e s', R s e s' → ∃ a, Step (watch s) a (watch s'))
    (hrun : Run R s es s') (hs : (watch s).InStep) (hrest : (watch s').looking = false)
    (hdue : (watch s').due = false) : (watch s').seen = (watch s').current := by
  obtain ⟨as, has⟩ := hrun.simulate (A := Step) watch (I := fun _ => True)
    (fun s e s' _ hstep => ⟨trivial, hfollows s e s' hstep⟩) trivial
  exact seen_eq has hs hrest hdue

end Follows

end Watch

end V4WithV6Nh
