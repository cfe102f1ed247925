import Mathlib.Order.Nat
import V4WithV6Nh.Watch

/-!
# A Daemon that Polls a Message Socket

A daemon makes a pass over what it keeps in step, waits in `poll` for a message or for its
interval to end, reads one message, and makes the next pass, until a signal has cleared
`running`. What it does itself may send messages to the socket as well; a loop can look at who
has sent the message, and go back to `poll` after one of its own.

`Poller` is such a loop over any passes. Messages, signals and what others change come at any
moment: also between the test of `running` and the call of `poll`, where a signal interrupts
nothing. A message that finds the socket full is dropped.

## Main results

* `resting_seen`: a daemon that waits, with no message to read and none dropped since its last
  pass began, is right about what the messages tell of.
* `passes_le`: no pass begins without something that rouses the loop.
* `resting_pass`: what it holds is the outcome of its last pass.
* `loop_ends`: after a signal at most one more pass begins, and the loop comes to its end.
* `exists_stops`: a daemon that is done has made what follows the loop.
-/

namespace V4WithV6Nh

/-- A daemon that polls: faults of one pass `γ`, a memory `δ`, a world `σ`, and what the
messages tell of it `ν`. -/
structure Poller (γ δ σ ν : Type*) where
  pass : γ → δ → σ → δ × σ
  /-- What follows the loop. -/
  stop : γ → δ → σ → δ × σ
  /-- What the messages tell of. -/
  watched : σ → ν
  /-- The first world, with the tables that the daemon writes as in the second. -/
  written : σ → σ → σ
  /-- The loop goes back to `poll` after a message of its own. -/
  skipsOwn : Bool
  /-- SIGHUP is handled. -/
  reloads : Bool
  written_self : ∀ w, written w w = w
  watched_pass : ∀ calls d w r, watched w = watched r →
    watched (written w (pass calls d r).2) = watched (pass calls d r).2

namespace Poller

/-! ### The loop and the others -/

/-- Where the loop is. -/
inductive At
  /-- In front of a pass. -/
  | ready
  | passing
  /-- In front of `while (running)`. -/
  | testing
  /-- Behind the test, in front of `poll`. -/
  | entering
  | polling
  /-- Behind the loop. -/
  | leaving
  | done
deriving DecidableEq

/-- Who has caused a message. -/
inductive Sender
  | own
  | others
deriving DecidableEq

/-- The process, and what it works on. -/
structure State (δ σ ν : Type*) where
  pos : At
  running : Bool
  /-- The messages that are still to be read. -/
  queue : List Sender
  /-- A message of others was dropped since the last pass began. -/
  dropped : Bool
  daemon : δ
  world : σ
  /-- What the last pass has read. -/
  lastRead : σ
  /-- What it has left of what the messages tell of. -/
  seen : ν
  /-- Others have changed nothing that the messages tell of since the last pass began. -/
  untouched : Bool
  /-- They have changed nothing at all. -/
  still : Bool

/-- Who takes a step. -/
inductive Event (γ σ : Type*)
  /-- Others change something that a message tells of. -/
  | change (w : σ) (delivered : Bool)
  /-- Others change something else. -/
  | other (w : σ)
  /-- A message of others that tells of nothing. -/
  | message
  | terminate
  | hangup
  | begin
  | pass (calls : γ) (read : σ) (echoes : ℕ)
  | test
  | poll
  | read
  | timeout
  | stop (calls : γ)

variable {γ δ σ ν : Type*}

/-- The daemon in front of its first pass. -/
def start (P : Poller γ δ σ ν) (d : δ) (w : σ) : State δ σ ν where
  pos := .ready
  running := true
  queue := []
  dropped := false
  daemon := d
  world := w
  lastRead := w
  seen := P.watched w
  untouched := false
  still := false

/-- The loop goes on to a pass when it has read the message. -/
def rouses (P : Poller γ δ σ ν) : Sender → Bool
  | .own => !P.skipsOwn
  | .others => true

/-- One step. A pass reads the tables one after the other while others change them, and is
alone with the tables that it writes. A signal that comes during `poll` ends it. -/
def Step (P : Poller γ δ σ ν) (s : State δ σ ν) (e : Event γ σ) (s' : State δ σ ν) : Prop :=
  match e with
  | .change w delivered =>
      s' = { s with
        world := w
        untouched := false
        still := false
        queue := if delivered then s.queue ++ [.others] else s.queue
        dropped := s.dropped || !delivered }
  | .other w => P.watched w = P.watched s.world ∧ s' = { s with world := w, still := false }
  | .message => s' = { s with queue := s.queue ++ [.others] }
  | .terminate =>
      s' = { s with running := false, pos := if s.pos = .polling then .ready else s.pos }
  | .hangup =>
      P.reloads = true ∧ s' = { s with pos := if s.pos = .polling then .ready else s.pos }
  | .begin =>
      s.pos = .ready ∧
        s' = { s with pos := .passing, untouched := true, still := true, dropped := false }
  | .pass calls read echoes =>
      s.pos = .passing ∧ P.written s.world read = s.world ∧
        (s.untouched = true → P.watched s.world = P.watched read) ∧
        (s.still = true → read = s.world) ∧
        s' = { s with
          pos := .testing
          daemon := (P.pass calls s.daemon read).1
          world := P.written s.world (P.pass calls s.daemon read).2
          lastRead := read
          seen := P.watched (P.pass calls s.daemon read).2
          queue := s.queue ++ List.replicate echoes .own }
  | .test =>
      s.pos = .testing ∧ s' = { s with pos := if s.running then .entering else .leaving }
  | .poll => s.pos = .entering ∧ s' = { s with pos := .polling }
  | .read =>
      ∃ m rest, s.pos = .polling ∧ s.queue = m :: rest ∧
        s' = { s with queue := rest, pos := if P.rouses m then .ready else .testing }
  | .timeout => s.pos = .polling ∧ s.queue = [] ∧ s' = { s with pos := .ready }
  | .stop calls =>
      s.pos = .leaving ∧
        s' = { s with
          pos := .done
          daemon := (P.stop calls s.daemon s.world).1
          world := (P.stop calls s.daemon s.world).2 }

/-! ### No change is lost -/

/-- A pass will begin before the loop waits with nothing to wake it, or the loop has ended. -/
def State.due (P : Poller γ δ σ ν) (s : State δ σ ν) : Bool :=
  s.dropped || s.queue.any P.rouses || s.pos = .ready || s.pos = .leaving || s.pos = .done

/-- The daemon as a loop that watches. -/
def State.watch (P : Poller γ δ σ ν) (s : State δ σ ν) : Watch ν where
  current := P.watched s.world
  seen := s.seen
  looking := s.pos = .passing
  untouched := s.untouched && !(s.pos = .done)
  due := s.due P

section Follows

variable {P : Poller γ δ σ ν} {s s' : State δ σ ν} {e : Event γ σ}

/-- **The daemon is a loop that watches**, whoever takes a step. -/
theorem watch_follows (h : P.Step s e s') : ∃ a, (s.watch P).Step a (s'.watch P) := by
  cases e with
  | change w delivered =>
      obtain rfl : s' = _ := h
      refine ⟨.change (P.watched w), ?_⟩
      cases delivered <;> simp [Watch.Step, State.watch, State.due, rouses]
  | other w =>
      obtain ⟨hw, rfl⟩ := h
      exact ⟨.other, by simp [Watch.Step, State.watch, State.due, hw]⟩
  | message =>
      obtain rfl : s' = _ := h
      exact ⟨.rouse, by simp [Watch.Step, State.watch, State.due, rouses]⟩
  | terminate =>
      obtain rfl : s' = _ := h
      by_cases hpos : s.pos = .polling
      · exact ⟨.rouse, by simp [Watch.Step, State.watch, State.due, hpos]⟩
      · exact ⟨.other, by simp [Watch.Step, State.watch, State.due, hpos]⟩
  | hangup =>
      obtain ⟨-, rfl⟩ := h
      by_cases hpos : s.pos = .polling
      · exact ⟨.rouse, by simp [Watch.Step, State.watch, State.due, hpos]⟩
      · exact ⟨.other, by simp [Watch.Step, State.watch, State.due, hpos]⟩
  | begin =>
      obtain ⟨hpos, rfl⟩ := h
      exact ⟨.begin _, by simp [State.watch, hpos], rfl⟩
  | pass calls read echoes =>
      obtain ⟨hpos, -, hread, -, rfl⟩ := h
      refine ⟨.finish (P.watched (P.pass calls s.daemon read).2)
          (P.watched (P.written s.world (P.pass calls s.daemon read).2))
          ((List.replicate echoes .own).any P.rouses), by simp [State.watch, hpos], ?_, ?_⟩
      · intro huntouched
        exact (P.watched_pass _ _ _ _ (hread (Bool.and_eq_true_iff.mp huntouched).1)).symm
      · simp [State.watch, State.due, hpos, Bool.or_assoc]
  | test =>
      obtain ⟨hpos, rfl⟩ := h
      cases hrunning : s.running with
      | true => exact ⟨.other, by simp [Watch.Step, State.watch, State.due, hpos]⟩
      | false => exact ⟨.rouse, by simp [Watch.Step, State.watch, State.due, hpos]⟩
  | poll =>
      obtain ⟨hpos, rfl⟩ := h
      exact ⟨.other, by simp [Watch.Step, State.watch, State.due, hpos]⟩
  | read =>
      obtain ⟨m, rest, hpos, hqueue, rfl⟩ := h
      cases hm : P.rouses m with
      | true => exact ⟨.other, by simp [Watch.Step, State.watch, State.due, hpos, hqueue, hm]⟩
      | false => exact ⟨.other, by simp [Watch.Step, State.watch, State.due, hpos, hqueue, hm]⟩
  | timeout =>
      obtain ⟨hpos, -, rfl⟩ := h
      exact ⟨.rouse, by simp [Watch.Step, State.watch, State.due, hpos]⟩
  | stop calls =>
      obtain ⟨hpos, rfl⟩ := h
      exact ⟨.change (P.watched (P.stop calls s.daemon s.world).2),
        by simp [Watch.Step, State.watch, State.due, hpos]⟩

/-- The loop waits, or is about to, with no message to rouse it and none dropped. -/
structure State.Resting (P : Poller γ δ σ ν) (s : State δ σ ν) : Prop where
  pos : s.pos = .entering ∨ s.pos = .polling
  queue : s.queue.any P.rouses = false
  dropped : s.dropped = false

/-- **No change is lost**: a daemon at rest is right about what the messages tell of. -/
theorem resting_seen {d : δ} {w : σ} {es : List (Event γ σ)}
    (hrun : Run P.Step (P.start d w) es s) (hrest : s.Resting P) :
    s.seen = P.watched s.world := by
  have hfollows : ∀ s e s', P.Step s e s' → ∃ a, (s.watch P).Step a (s'.watch P) :=
    fun _ _ _ => watch_follows
  refine Watch.seen_eq_of_follows hfollows hrun ⟨nofun, nofun⟩ ?_ ?_
  · rcases hrest.pos with hpos | hpos <;> simp [State.watch, hpos]
  · rcases hrest.pos with hpos | hpos <;>
      simp [State.watch, State.due, hpos, hrest.queue, hrest.dropped]

/-- The loop is somewhere between two passes. -/
def At.isBetween : At → Bool
  | .testing | .entering | .polling => true
  | _ => false

/-- The answers that a pass got. -/
def Event.calls? : Event γ σ → Option γ
  | .pass calls _ _ => some calls
  | _ => none

/-- The answers that the last pass got. -/
def lastCalls (es : List (Event γ σ)) : Option γ := (es.filterMap Event.calls?).getLast?

/-- Only a pass and the end change the memory, and they are the only way between two passes and
to be done. -/
theorem step_cases (h : P.Step s e s') :
    (∃ calls, e.calls? = some calls ∧ s'.pos = .testing ∧
      s'.daemon = (P.pass calls s.daemon s'.lastRead).1 ∧
      s'.seen = P.watched (P.pass calls s.daemon s'.lastRead).2) ∨
    (∃ calls, e = .stop calls ∧ s'.pos = .done) ∨
    (e.calls? = none ∧ s'.daemon = s.daemon ∧ s'.lastRead = s.lastRead ∧ s'.seen = s.seen ∧
      (s'.pos.isBetween = true → s.pos.isBetween = true) ∧ (s'.pos = .done → s.pos = .done)) := by
  cases e with
  | change w delivered =>
      obtain rfl : s' = _ := h
      exact .inr (.inr ⟨rfl, rfl, rfl, rfl, id, id⟩)
  | other w =>
      obtain ⟨-, rfl⟩ := h
      exact .inr (.inr ⟨rfl, rfl, rfl, rfl, id, id⟩)
  | message =>
      obtain rfl : s' = _ := h
      exact .inr (.inr ⟨rfl, rfl, rfl, rfl, id, id⟩)
  | terminate =>
      obtain rfl : s' = _ := h
      refine .inr (.inr ⟨rfl, rfl, rfl, rfl, ?_, ?_⟩) <;> by_cases hpos : s.pos = .polling <;>
        simp [hpos, At.isBetween]
  | hangup =>
      obtain ⟨-, rfl⟩ := h
      refine .inr (.inr ⟨rfl, rfl, rfl, rfl, ?_, ?_⟩) <;> by_cases hpos : s.pos = .polling <;>
        simp [hpos, At.isBetween]
  | begin =>
      obtain ⟨-, rfl⟩ := h
      exact .inr (.inr ⟨rfl, rfl, rfl, rfl, nofun, nofun⟩)
  | pass calls read echoes =>
      obtain ⟨-, -, -, -, rfl⟩ := h
      exact .inl ⟨calls, rfl, rfl, rfl, rfl⟩
  | test =>
      obtain ⟨hpos, rfl⟩ := h
      refine .inr (.inr ⟨rfl, rfl, rfl, rfl, fun _ => by rw [hpos]; rfl, ?_⟩)
      cases s.running <;> exact nofun
  | poll =>
      obtain ⟨hpos, rfl⟩ := h
      exact .inr (.inr ⟨rfl, rfl, rfl, rfl, fun _ => by rw [hpos]; rfl, nofun⟩)
  | read =>
      obtain ⟨m, rest, hpos, -, rfl⟩ := h
      refine .inr (.inr ⟨rfl, rfl, rfl, rfl, fun _ => by rw [hpos]; rfl, ?_⟩)
      cases P.rouses m <;> exact nofun
  | timeout =>
      obtain ⟨-, -, rfl⟩ := h
      exact .inr (.inr ⟨rfl, rfl, rfl, rfl, nofun, nofun⟩)
  | stop calls =>
      obtain ⟨-, rfl⟩ := h
      exact .inr (.inl ⟨calls, rfl, rfl⟩)

/-- Between two passes the memory is as the last one has left it. -/
theorem last_pass {d : δ} {w : σ} {es : List (Event γ σ)}
    (hrun : Run P.Step (P.start d w) es s) (hbetween : s.pos.isBetween = true) :
    ∃ calls d, lastCalls es = some calls ∧ s.daemon = (P.pass calls d s.lastRead).1 ∧
      s.seen = P.watched (P.pass calls d s.lastRead).2 := by
  obtain ⟨es₁, e, es₂, t, t', rfl, -, -, ⟨calls, he, hdaemon, hseen⟩, hrest⟩ :=
    hrun.since (J := fun s => s.pos.isBetween = true)
      (K := fun s e s' => ∃ calls, e.calls? = some calls ∧
        s'.daemon = (P.pass calls s.daemon s'.lastRead).1 ∧
        s'.seen = P.watched (P.pass calls s.daemon s'.lastRead).2)
      (C := fun s e s' => e.calls? = none ∧ s'.daemon = s.daemon ∧ s'.lastRead = s.lastRead ∧
        s'.seen = s.seen) (by
      intro s e s' hstep hpos
      obtain ⟨calls, he, -, hkept⟩ | ⟨calls, -, hdone⟩ | ⟨he, hdaemon, hread, hseen, hb, -⟩ :=
        step_cases hstep
      · exact .inl ⟨calls, he, hkept⟩
      · rw [hdone] at hpos
        cases hpos
      · exact .inr ⟨hb hpos, he, hdaemon, hread, hseen⟩) nofun hbetween
  have hquiet := hrest.forall_mem (p := fun e => e.calls? = none) fun _ _ _ h => h.2.1
  obtain ⟨hdaemon', hread', hseen'⟩ := hrest.invariant
    (I := fun s => s.daemon = t'.daemon ∧ s.lastRead = t'.lastRead ∧ s.seen = t'.seen)
    (fun _ _ _ hs h => ⟨h.2.2.1.trans hs.1, h.2.2.2.1.trans hs.2.1, h.2.2.2.2.trans hs.2.2⟩)
    ⟨rfl, rfl, rfl⟩
  refine ⟨calls, t.daemon, ?_, ?_, ?_⟩
  · exact getLast?_filterMap_eq_some_iff.mpr ⟨es₁, e, es₂, rfl, he, hquiet⟩
  · rw [hdaemon', hread', hdaemon]
  · rw [hseen', hread', hseen]

/-- **What a daemon at rest holds** is the outcome of its last pass, and the tables that the
messages tell of are as this pass has left them. -/
theorem resting_pass {d : δ} {w : σ} {es : List (Event γ σ)}
    (hrun : Run P.Step (P.start d w) es s) (hrest : s.Resting P) :
    ∃ calls d, lastCalls es = some calls ∧ s.daemon = (P.pass calls d s.lastRead).1 ∧
      P.watched s.world = P.watched (P.pass calls d s.lastRead).2 := by
  rw [← resting_seen hrun hrest]
  refine last_pass hrun ?_
  rcases hrest.pos with hpos | hpos <;> rw [hpos] <;> rfl

/-- The run from `s₀` has come from `t` to `t'` by what follows the loop, with these answers. -/
def Stops (P : Poller γ δ σ ν) (s₀ : State δ σ ν) (es : List (Event γ σ)) (s : State δ σ ν)
    (calls : γ) (t t' : State δ σ ν) : Prop :=
  ∃ es₁ es₂, es = es₁ ++ .stop calls :: es₂ ∧ Run P.Step s₀ es₁ t ∧ P.Step t (.stop calls) t' ∧
    Run P.Step t' es₂ s

/-- A daemon that is done has made what follows the loop, and its memory is as that has left
it. -/
theorem exists_stops {d : δ} {w : σ} {es : List (Event γ σ)}
    (hrun : Run P.Step (P.start d w) es s) (hdone : s.pos = .done) :
    ∃ calls t t', P.Stops (P.start d w) es s calls t t' ∧ s.daemon = t'.daemon := by
  obtain ⟨es₁, e, es₂, t, t', rfl, hbefore, hstop, ⟨calls, rfl⟩, hrest⟩ :=
    hrun.since (J := fun s => s.pos = .done) (K := fun _ e _ => ∃ calls, e = .stop calls)
      (C := fun s _ s' => s'.daemon = s.daemon) (by
      intro s e s' hstep hpos
      obtain ⟨calls, -, htesting, -⟩ | ⟨calls, he, -⟩ | ⟨-, hdaemon, -, -, -, hb⟩ :=
        step_cases hstep
      · rw [htesting] at hpos
        cases hpos
      · exact .inl ⟨calls, he⟩
      · exact .inr ⟨hb hpos, hdaemon⟩) nofun hdone
  exact ⟨calls, t, t', ⟨es₁, es₂, rfl, hbefore, hstop, hrest.mono fun _ _ _ h => h.1⟩,
    hrest.invariant (I := fun s => s.daemon = t'.daemon) (fun _ _ _ hs h => h.2.trans hs) rfl⟩

end Follows

/-! ### What begins a pass -/

/-- The beginning of a pass. -/
def Event.isBegin : Event γ σ → Bool
  | .begin => true
  | _ => false

/-- How often an event can rouse the loop. -/
def stimuli (P : Poller γ δ σ ν) : Event γ σ → ℕ
  | .change _ _ | .message | .terminate | .hangup | .timeout => 1
  | .pass _ _ echoes => if P.skipsOwn then 0 else echoes
  | _ => 0

/-- The passes that are under way without anything new. -/
def State.pending (P : Poller γ δ σ ν) (s : State δ σ ν) : ℕ :=
  s.queue.countP P.rouses + (s.pos = .ready : Bool).toNat

section Passes

variable {P : Poller γ δ σ ν} {s s' : State δ σ ν} {e : Event γ σ}

theorem pending_step (h : P.Step s e s') :
    e.isBegin.toNat + s'.pending P ≤ s.pending P + P.stimuli e := by
  cases e with
  | change w delivered =>
      obtain rfl : s' = _ := h
      cases delivered with
      | true =>
          simp [State.pending, stimuli, Event.isBegin, rouses]
          omega
      | false => simp [State.pending, stimuli, Event.isBegin]
  | other w =>
      obtain ⟨-, rfl⟩ := h
      simp [State.pending, Event.isBegin]
  | message =>
      obtain rfl : s' = _ := h
      simp [State.pending, stimuli, Event.isBegin, rouses]
      omega
  | terminate =>
      obtain rfl : s' = _ := h
      by_cases hpos : s.pos = .polling <;>
        simp [State.pending, stimuli, Event.isBegin, hpos]
  | hangup =>
      obtain ⟨-, rfl⟩ := h
      by_cases hpos : s.pos = .polling <;>
        simp [State.pending, stimuli, Event.isBegin, hpos]
  | begin =>
      obtain ⟨hpos, rfl⟩ := h
      simp [State.pending, stimuli, Event.isBegin, hpos]
      omega
  | pass calls read echoes =>
      obtain ⟨hpos, -, -, -, rfl⟩ := h
      cases hskips : P.skipsOwn <;>
        simp [State.pending, stimuli, Event.isBegin, hpos, rouses, hskips, List.countP_replicate]
  | test =>
      obtain ⟨hpos, rfl⟩ := h
      cases hrunning : s.running <;> simp [State.pending, Event.isBegin, hpos]
  | poll =>
      obtain ⟨hpos, rfl⟩ := h
      simp [State.pending, Event.isBegin, hpos]
  | read =>
      obtain ⟨m, rest, hpos, hqueue, rfl⟩ := h
      cases hm : P.rouses m <;> simp [State.pending, Event.isBegin, hpos, hqueue, hm]
  | timeout =>
      obtain ⟨hpos, -, rfl⟩ := h
      simp [State.pending, stimuli, Event.isBegin, hpos]
  | stop calls =>
      obtain ⟨hpos, rfl⟩ := h
      simp [State.pending, Event.isBegin, hpos]

/-- **No pass without a reason**: the passes of a run are at most one more than what rouses the
loop. -/
theorem passes_le {d : δ} {w : σ} {es : List (Event γ σ)}
    (hrun : Run P.Step (P.start d w) es s) :
    es.countP Event.isBegin ≤ 1 + (es.map P.stimuli).sum := by
  have h := hrun.countP_add_le (I := fun _ => True) (p := Event.isBegin) (f := State.pending P)
    (c := P.stimuli) (fun _ _ _ _ hstep => ⟨trivial, pending_step hstep⟩) trivial
  have hstart : (P.start d w).pending P = 1 := rfl
  omega

end Passes

/-! ### The end of the loop -/

/-- A step of the daemon itself; the end of the interval is one. -/
def Event.isOwn : Event γ σ → Bool
  | .change _ _ | .other _ | .message | .terminate | .hangup => false
  | _ => true

/-- The steps that are left after a signal. -/
def At.stepsLeft : At → ℕ
  | .entering => 6
  | .polling => 5
  | .ready => 4
  | .passing => 3
  | .testing => 2
  | .leaving => 1
  | .done => 0

/-- The passes that are left after a signal. -/
def At.passesLeft : At → ℕ
  | .entering => 1
  | .polling => 1
  | .ready => 1
  | _ => 0

section Ends

variable {P : Poller γ δ σ ν} {s s' : State δ σ ν} {e : Event γ σ}

/-- After a signal each step brings the loop nearer to its end. -/
theorem terminated_step (hrunning : s.running = false) (h : P.Step s e s') :
    s'.running = false ∧ e.isOwn.toNat + s'.pos.stepsLeft ≤ s.pos.stepsLeft ∧
      e.isBegin.toNat + s'.pos.passesLeft ≤ s.pos.passesLeft := by
  cases e with
  | change w delivered =>
      obtain rfl : s' = _ := h
      exact ⟨hrunning, (Nat.zero_add _).le, (Nat.zero_add _).le⟩
  | other w =>
      obtain ⟨-, rfl⟩ := h
      exact ⟨hrunning, (Nat.zero_add _).le, (Nat.zero_add _).le⟩
  | message =>
      obtain rfl : s' = _ := h
      exact ⟨hrunning, (Nat.zero_add _).le, (Nat.zero_add _).le⟩
  | terminate =>
      obtain rfl : s' = _ := h
      refine ⟨rfl, ?_⟩
      by_cases hpos : s.pos = .polling
      · simp [hpos, Event.isOwn, Event.isBegin, At.stepsLeft, At.passesLeft]
      · simp [hpos, Event.isOwn, Event.isBegin]
  | hangup =>
      obtain ⟨-, rfl⟩ := h
      refine ⟨hrunning, ?_⟩
      by_cases hpos : s.pos = .polling
      · simp [hpos, Event.isOwn, Event.isBegin, At.stepsLeft, At.passesLeft]
      · simp [hpos, Event.isOwn, Event.isBegin]
  | begin =>
      obtain ⟨hpos, rfl⟩ := h
      rw [hpos]
      exact ⟨hrunning, le_rfl, le_rfl⟩
  | pass calls read echoes =>
      obtain ⟨hpos, -, -, -, rfl⟩ := h
      rw [hpos]
      exact ⟨hrunning, le_rfl, le_rfl⟩
  | test =>
      obtain ⟨hpos, rfl⟩ := h
      refine ⟨hrunning, ?_⟩
      rw [hpos, hrunning]
      exact ⟨le_rfl, le_rfl⟩
  | poll =>
      obtain ⟨hpos, rfl⟩ := h
      rw [hpos]
      exact ⟨hrunning, le_rfl, le_rfl⟩
  | read =>
      obtain ⟨m, rest, hpos, -, rfl⟩ := h
      rw [hpos]
      cases hm : P.rouses m with
      | true => exact ⟨hrunning, le_rfl, le_rfl⟩
      | false =>
          refine ⟨hrunning, ?_⟩
          simp [Event.isOwn, Event.isBegin, At.stepsLeft, At.passesLeft]
  | timeout =>
      obtain ⟨hpos, -, rfl⟩ := h
      rw [hpos]
      exact ⟨hrunning, le_rfl, le_rfl⟩
  | stop calls =>
      obtain ⟨hpos, rfl⟩ := h
      rw [hpos]
      exact ⟨hrunning, le_rfl, le_rfl⟩

/-- A loop that has not ended has a step to take. -/
theorem exists_step (P : Poller γ δ σ ν) (calls : γ) (hdone : s.pos ≠ .done) :
    ∃ e s', e.isOwn = true ∧ P.Step s e s' := by
  cases hs : s.pos with
  | ready => exact ⟨.begin, _, rfl, hs, rfl⟩
  | passing =>
      exact ⟨.pass calls s.world 0, _, rfl, hs, P.written_self _, fun _ => rfl,
        fun _ => rfl, rfl⟩
  | testing => exact ⟨.test, _, rfl, hs, rfl⟩
  | entering => exact ⟨.poll, _, rfl, hs, rfl⟩
  | polling =>
      cases hqueue : s.queue with
      | nil => exact ⟨.timeout, _, rfl, hs, hqueue, rfl⟩
      | cons m rest => exact ⟨.read, _, rfl, m, rest, hs, hqueue, rfl⟩
  | leaving => exact ⟨.stop calls, _, rfl, hs, rfl⟩
  | done => exact absurd hs hdone

/-- **The loop comes to its end** after a signal: whatever the others do, it begins at most one
more pass and takes at most six more steps, and until it is done it has a step to take. -/
theorem loop_ends (calls : γ) {d : δ} {w : σ} {es es' : List (Event γ σ)}
    (hrun : Run P.Step (P.start d w) (es ++ .terminate :: es') s) :
    es'.countP Event.isBegin ≤ 1 ∧ es'.countP Event.isOwn ≤ 6 ∧
      (s.pos = .done ∨ ∃ e s', e.isOwn = true ∧ P.Step s e s') := by
  obtain ⟨t, -, hrest⟩ := hrun.of_append
  cases hrest with
  | @cons _ t' _ _ _ hsignal hes' =>
      have hrunning : t'.running = false := by
        obtain rfl : t' = _ := hsignal
        rfl
      have hbegins := hes'.countP_le (I := fun s => s.running = false) (p := Event.isBegin)
        (f := fun s => s.pos.passesLeft) (fun _ _ _ hs hstep =>
          ⟨(terminated_step hs hstep).1, (terminated_step hs hstep).2.2⟩) hrunning
      have howns := hes'.countP_le (I := fun s => s.running = false) (p := Event.isOwn)
        (f := fun s => s.pos.stepsLeft) (fun _ _ _ hs hstep =>
          ⟨(terminated_step hs hstep).1, (terminated_step hs hstep).2.1⟩) hrunning
      have hsteps : t'.pos.stepsLeft ≤ 6 := by cases t'.pos <;> decide
      have hpasses : t'.pos.passesLeft ≤ 1 := by cases t'.pos <;> decide
      exact ⟨hbegins.trans hpasses, howns.trans hsteps,
        (em (s.pos = .done)).imp_right (exists_step P calls)⟩

end Ends

end Poller

end V4WithV6Nh
