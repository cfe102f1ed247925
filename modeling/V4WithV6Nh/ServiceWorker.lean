import V4WithV6Nh.FailedRepin
import V4WithV6Nh.Watch

/-!
# The Worker of the Windows Service

`run_worker` registers for changes of the routes, the addresses and the interfaces, makes a
first pass, and then waits for two events: the stop event, which stays set, and the wake
event, which a callback sets and the wait resets. A wake-up is followed by a short sleep, so
that a burst of changes costs one pass, and a wait that takes too long ends in a pass as well.

Here the worker, the threads of the callbacks, the one that sets the stop event, and everybody
else who changes the tables take their steps in any order. The registrations may fail, which
the worker does not notice.

## Main results

* `resting_read`: a worker that waits with nothing outstanding has decided on the tables that
  it is notified of as they are.
* `entry_at_rest`: an entry that it then holds is the one by these tables, with a MAC that the
  last pass has found in the neighbour table or in the registry.
* `worker_ends`: after the stop event at most one more pass begins, and the worker comes to its
  end, where it withdraws, by at most five more of its own steps.
-/

namespace V4WithV6Nh.WindowsDaemon

/-! ### The worker and the others -/

/-- Where the worker is in `run_worker`. -/
inductive At
  /-- Before the registrations. -/
  | registering
  /-- In front of `reconcile`. -/
  | ready
  | reconciling
  /-- In `WaitForMultipleObjects`. -/
  | waiting
  /-- In `Sleep(150)`. -/
  | sleeping
  /-- Behind the loop. -/
  | leaving
  | done
deriving DecidableEq

/-- What the worker is notified of. -/
structure Watched where
  aliasToLuid : Text → Option ℕ
  indexToLuid : ℕ → Option ℕ
  luidToIndex : ℕ → Option ℕ
  forward6 : List ForwardRow
  forward4 : List ForwardRow

/-- The routes and the interfaces of a world. -/
def World.watched (w : World) : Watched :=
  ⟨w.aliasToLuid, w.indexToLuid, w.luidToIndex, w.forward6, w.forward4⟩

/-- The process, and what it works on. -/
structure Service where
  pos : At
  /-- `NotifyRouteChange2` and the other two registrations succeeded. -/
  registered : Bool
  /-- `g_wake_event`. -/
  wake : Bool
  /-- `g_stop_event`. -/
  stop : Bool
  /-- The callbacks that the system has still to make. -/
  callbacks : ℕ
  daemon : Daemon
  world : World
  /-- What the last pass has read. -/
  read : World
  /-- Others have changed nothing that the worker is notified of since the last pass began. -/
  untouched : Bool
  /-- They have changed nothing at all. -/
  still : Bool

/-- The service when the worker starts. -/
def Service.start (cfg : Config) (w : World) : Service where
  pos := .registering
  registered := false
  wake := false
  stop := false
  callbacks := 0
  daemon := .fresh cfg
  world := w
  read := w
  untouched := false
  still := false

/-- `withdraw` behind the loop. Without a LUID nothing is installed. -/
def leave (I : IpHelper) (calls : Calls) (d : Daemon) (w : World) : Daemon × World :=
  match d.luid with
  | some luid => withdraw I calls d luid w
  | none => (d, w)

/-- Who takes a step. -/
inductive WorkerEvent
  /-- Others change something that the worker is notified of. -/
  | change (w : World)
  /-- Others change something else. -/
  | other (w : World)
  /-- `cb_route`, `cb_addr` or `cb_iface`. -/
  | callback
  /-- `ctrl_handler` or `console_ctrl` sets the stop event. -/
  | setStop
  | register (ok : Bool)
  | begin
  | reconcile (calls : Calls) (read : World)
  /-- `WAIT_OBJECT_0 + 1`. -/
  | woken
  | timeout
  | slept
  /-- `WAIT_OBJECT_0`. -/
  | leave
  | withdraw (calls : Calls)

/-- One step. A pass reads the tables one after the other while others change them, and is
alone with the neighbour table and the registry. -/
def WorkerStep (I : IpHelper) (s : Service) (e : WorkerEvent) (s' : Service) : Prop :=
  match e with
  | .change w =>
      s' = { s with
        world := w
        untouched := false
        still := false
        callbacks := if s.registered then s.callbacks + 1 else s.callbacks }
  | .other w => w.watched = s.world.watched ∧ s' = { s with world := w, still := false }
  | .callback =>
      0 < s.callbacks ∧ s' = { s with callbacks := s.callbacks - 1, wake := true }
  | .setStop => s' = { s with stop := true }
  | .register ok =>
      s.pos = .registering ∧ s' = { s with pos := .ready, registered := ok }
  | .begin =>
      s.pos = .ready ∧ s' = { s with pos := .reconciling, untouched := true, still := true }
  | .reconcile calls read =>
      s.pos = .reconciling ∧ read.net4 = s.world.net4 ∧ read.registry = s.world.registry ∧
        (s.untouched = true → read.watched = s.world.watched) ∧
        (s.still = true → read = s.world) ∧
        s' = { s with
          pos := .waiting
          daemon := (reconcile I calls s.daemon read).1
          world := { s.world with
            net4 := (reconcile I calls s.daemon read).2.net4
            registry := (reconcile I calls s.daemon read).2.registry }
          read := read }
  | .woken =>
      s.pos = .waiting ∧ s.stop = false ∧ s.wake = true ∧
        s' = { s with pos := .sleeping, wake := false }
  | .timeout =>
      s.pos = .waiting ∧ s.stop = false ∧ s.wake = false ∧ s' = { s with pos := .ready }
  | .slept => s.pos = .sleeping ∧ s' = { s with pos := .ready }
  | .leave => s.pos = .waiting ∧ s.stop = true ∧ s' = { s with pos := .leaving }
  | .withdraw calls =>
      s.pos = .leaving ∧
        s' = { s with
          pos := .done
          daemon := (leave I calls s.daemon s.world).1
          world := (leave I calls s.daemon s.world).2 }

/-! ### No change is lost -/

/-- A pass will begin before the worker waits with nothing to wake it. -/
def Service.due (s : Service) : Bool :=
  !s.registered || s.callbacks != 0 || s.wake ||
    s.pos = .registering || s.pos = .ready || s.pos = .sleeping

/-- The worker as a loop that watches. -/
def Service.watch (s : Service) : Watch Watched where
  current := s.world.watched
  seen := s.read.watched
  looking := s.pos = .reconciling
  untouched := s.untouched
  due := s.due

section Follows

variable {I : IpHelper} {s s' : Service} {e : WorkerEvent}

/-- The end of the worker changes the neighbour table only. -/
theorem watched_leave (I : IpHelper) (calls : Calls) (d : Daemon) (w : World) :
    (leave I calls d w).2.watched = w.watched := by
  rw [leave]
  split
  · rw [withdraw]
    split <;> rfl
  · rfl

/-- **The worker is a loop that watches**, whoever takes a step. -/
theorem watch_follows (h : WorkerStep I s e s') : ∃ a, s.watch.Step a s'.watch := by
  cases e with
  | change w =>
      obtain rfl : s' = _ := h
      refine ⟨.change w.watched, ?_⟩
      cases hr : s.registered <;> simp [Watch.Step, Service.watch, Service.due, hr]
  | other w =>
      obtain ⟨hw, rfl⟩ := h
      exact ⟨.other, by simp [Watch.Step, Service.watch, Service.due, hw]⟩
  | callback =>
      obtain ⟨hpos, rfl⟩ := h
      exact ⟨.rouse, by simp [Watch.Step, Service.watch, Service.due]⟩
  | setStop =>
      obtain rfl : s' = _ := h
      exact ⟨.other, rfl⟩
  | register ok =>
      obtain ⟨hpos, rfl⟩ := h
      exact ⟨.rouse, by simp [Watch.Step, Service.watch, Service.due, hpos]⟩
  | begin =>
      obtain ⟨hpos, rfl⟩ := h
      exact ⟨.begin _, by simp [Service.watch, hpos], rfl⟩
  | reconcile calls read =>
      obtain ⟨hpos, -, -, hread, -, rfl⟩ := h
      refine ⟨.finish read.watched s.world.watched false, by simp [Service.watch, hpos], hread, ?_⟩
      simp [Service.watch, Service.due, World.watched, hpos]
  | woken =>
      obtain ⟨hpos, -, hwake, rfl⟩ := h
      exact ⟨.other, by simp [Watch.Step, Service.watch, Service.due, hpos, hwake]⟩
  | timeout =>
      obtain ⟨hpos, -, hwake, rfl⟩ := h
      exact ⟨.rouse, by simp [Watch.Step, Service.watch, Service.due, hpos]⟩
  | slept =>
      obtain ⟨hpos, rfl⟩ := h
      exact ⟨.other, by simp [Watch.Step, Service.watch, Service.due, hpos]⟩
  | leave =>
      obtain ⟨hpos, -, rfl⟩ := h
      exact ⟨.other, by simp [Watch.Step, Service.watch, Service.due, hpos]⟩
  | withdraw calls =>
      obtain ⟨hpos, rfl⟩ := h
      exact ⟨.other, by
        simp [Watch.Step, Service.watch, Service.due, hpos, watched_leave]⟩

/-- The worker waits, and nothing is under way to wake it. -/
structure Service.Resting (s : Service) : Prop where
  pos : s.pos = .waiting
  registered : s.registered = true
  callbacks : s.callbacks = 0
  wake : s.wake = false

/-- **No change is lost**: a worker at rest has read the routes and interfaces as they are. -/
theorem resting_read {cfg : Config} {w : World} {es : List WorkerEvent}
    (hrun : Run (WorkerStep I) (.start cfg w) es s) (hrest : s.Resting) :
    s.read.watched = s.world.watched := by
  have hfollows : ∀ s e s', WorkerStep I s e s' → ∃ a, s.watch.Step a s'.watch :=
    fun _ _ _ => watch_follows
  refine Watch.seen_eq_of_follows hfollows hrun ⟨nofun, nofun⟩ ?_ ?_
  · simp [Service.watch, hrest.pos]
  · simp [Service.watch, Service.due, hrest.pos, hrest.registered, hrest.callbacks, hrest.wake]

/-- The answers that a pass got. -/
def WorkerEvent.calls? : WorkerEvent → Option Calls
  | .reconcile calls _ => some calls
  | _ => none

/-- The answers that the last pass got. -/
def lastCalls (es : List WorkerEvent) : Option Calls := (es.filterMap WorkerEvent.calls?).getLast?

/-- Only a pass and the end of the worker change its memory, and they are the only way to wait
and to be done. -/
theorem workerStep_cases (h : WorkerStep I s e s') :
    (∃ calls, e.calls? = some calls ∧ s'.pos = .waiting ∧
      s'.daemon = (reconcile I calls s.daemon s'.read).1) ∨
    (∃ calls, e = .withdraw calls ∧ s'.pos = .done) ∨
    e.calls? = none ∧ s'.daemon = s.daemon ∧ s'.read = s.read ∧
      (s'.pos = s.pos ∨ s'.pos ≠ .waiting ∧ s'.pos ≠ .done) := by
  cases e with
  | change w =>
      obtain rfl : s' = _ := h
      exact .inr (.inr ⟨rfl, rfl, rfl, .inl rfl⟩)
  | other w =>
      obtain ⟨-, rfl⟩ := h
      exact .inr (.inr ⟨rfl, rfl, rfl, .inl rfl⟩)
  | callback =>
      obtain ⟨-, rfl⟩ := h
      exact .inr (.inr ⟨rfl, rfl, rfl, .inl rfl⟩)
  | setStop =>
      obtain rfl : s' = _ := h
      exact .inr (.inr ⟨rfl, rfl, rfl, .inl rfl⟩)
  | register ok =>
      obtain ⟨-, rfl⟩ := h
      exact .inr (.inr ⟨rfl, rfl, rfl, .inr ⟨nofun, nofun⟩⟩)
  | begin =>
      obtain ⟨-, rfl⟩ := h
      exact .inr (.inr ⟨rfl, rfl, rfl, .inr ⟨nofun, nofun⟩⟩)
  | reconcile calls read =>
      obtain ⟨-, -, -, -, -, rfl⟩ := h
      exact .inl ⟨calls, rfl, rfl, rfl⟩
  | woken =>
      obtain ⟨-, -, -, rfl⟩ := h
      exact .inr (.inr ⟨rfl, rfl, rfl, .inr ⟨nofun, nofun⟩⟩)
  | timeout =>
      obtain ⟨-, -, -, rfl⟩ := h
      exact .inr (.inr ⟨rfl, rfl, rfl, .inr ⟨nofun, nofun⟩⟩)
  | slept =>
      obtain ⟨-, rfl⟩ := h
      exact .inr (.inr ⟨rfl, rfl, rfl, .inr ⟨nofun, nofun⟩⟩)
  | leave =>
      obtain ⟨-, -, rfl⟩ := h
      exact .inr (.inr ⟨rfl, rfl, rfl, .inr ⟨nofun, nofun⟩⟩)
  | withdraw calls =>
      obtain ⟨-, rfl⟩ := h
      exact .inr (.inl ⟨calls, rfl, rfl⟩)

variable {cfg : Config} {w : World} {es : List WorkerEvent}

/-- A worker that waits holds what its last pass has left. -/
theorem last_pass (hrun : Run (WorkerStep I) (.start cfg w) es s) (hpos : s.pos = .waiting) :
    ∃ calls d, lastCalls es = some calls ∧ s.daemon = (reconcile I calls d s.read).1 := by
  obtain ⟨es₁, e, es₂, t, t', rfl, -, -, ⟨calls, he, hdaemon⟩, hrest⟩ :=
    hrun.since (J := fun s => s.pos = .waiting)
      (K := fun s e s' => ∃ calls, e.calls? = some calls ∧
        s'.daemon = (reconcile I calls s.daemon s'.read).1)
      (C := fun s e s' => e.calls? = none ∧ s'.daemon = s.daemon ∧ s'.read = s.read) (by
      intro s e s' hstep hpos
      obtain ⟨calls, he, -, hdaemon⟩ | ⟨calls, -, hdone⟩ | ⟨he, hdaemon, hread, hsame | hne⟩ :=
        workerStep_cases hstep
      · exact .inl ⟨calls, he, hdaemon⟩
      · rw [hdone] at hpos
        cases hpos
      · exact .inr ⟨hsame.symm.trans hpos, he, hdaemon, hread⟩
      · exact absurd hpos hne.1) nofun hpos
  have hquiet := hrest.forall_mem (p := fun e => e.calls? = none) fun _ _ _ h => h.2.1
  obtain ⟨hdaemon', hread'⟩ := hrest.invariant
    (I := fun s => s.daemon = t'.daemon ∧ s.read = t'.read)
    (fun _ _ _ hs h => ⟨h.2.2.1.trans hs.1, h.2.2.2.trans hs.2⟩) ⟨rfl, rfl⟩
  refine ⟨calls, t.daemon, getLast?_filterMap_eq_some_iff.mpr ⟨es₁, e, es₂, rfl, he, hquiet⟩, ?_⟩
  rw [hdaemon', hread', hdaemon]

/-- The run of a worker has come from `t` to `t'` by its withdrawal, with these answers. -/
def Withdraws (I : IpHelper) (cfg : Config) (w : World) (es : List WorkerEvent) (s : Service)
    (calls : Calls) (t t' : Service) : Prop :=
  ∃ es₁ es₂, es = es₁ ++ .withdraw calls :: es₂ ∧ Run (WorkerStep I) (.start cfg w) es₁ t ∧
    WorkerStep I t (.withdraw calls) t' ∧ Run (WorkerStep I) t' es₂ s

/-- A worker that is done has withdrawn, and its memory is as that has left it. -/
theorem exists_withdraws (hrun : Run (WorkerStep I) (.start cfg w) es s) (hdone : s.pos = .done) :
    ∃ calls t t', Withdraws I cfg w es s calls t t' ∧ s.daemon = t'.daemon := by
  obtain ⟨es₁, e, es₂, t, t', rfl, hbefore, hleave, ⟨calls, rfl⟩, hrest⟩ :=
    hrun.since (J := fun s => s.pos = .done) (K := fun _ e _ => ∃ calls, e = .withdraw calls)
      (C := fun s _ s' => s'.daemon = s.daemon) (by
      intro s e s' hstep hpos
      obtain ⟨calls, -, hwaiting, -⟩ | ⟨calls, he, -⟩ | ⟨-, hdaemon, -, hsame | hne⟩ :=
        workerStep_cases hstep
      · rw [hwaiting] at hpos
        cases hpos
      · exact .inl ⟨calls, he⟩
      · exact .inr ⟨hsame.symm.trans hpos, hdaemon⟩
      · exact absurd hpos hne.2) nofun hdone
  exact ⟨calls, t, t', ⟨es₁, es₂, rfl, hbefore, hleave, hrest.mono fun _ _ _ h => h.1⟩,
    hrest.invariant (I := fun s => s.daemon = t'.daemon) (fun _ _ _ hs h => h.2.trans hs) rfl⟩

end Follows

/-! ### What is installed at rest -/

/-- The service holds the entry that it is to hold, by the routes and interfaces as they are and
by the neighbours, the adapter and the registry as the last pass has read them: its MAC is that of
the default router, or else the stored one. It is another one if the entry could not be made. -/
structure Current (I : IpHelper) (calls : Calls) (d : Daemon) (luid : ℕ) (mac : Mac)
    (now read : World) : Prop where
  resolved : d.luid = some luid
  present : (now.luidToIndex luid).isSome
  route : d.cfg.requireSentinelRoute = true → sentinelInFib luid now.forward4 = true
  source : (resolvedMac calls luid { now with net6 := read.net6 }).or
    (storedMac calls luid read) = some mac
  installed : d.installedMac = mac ∨
    (swap I calls (fillSentinelRow luid (some mac)) read.net4).1 ≠ NO_ERROR

section Installed

variable {I : IpHelper} {calls : Calls} {d : Daemon} {luid : ℕ} {w : World} {mac : Mac}

/-- An installation keeps the arguments and the LUID of the service, and remembers the MAC,
unless the entry could not be made. -/
theorem install_keeps : (install I calls d luid mac w).1.cfg = d.cfg ∧
    (install I calls d luid mac w).1.luid = d.luid ∧
    ((install I calls d luid mac w).1.installedMac = mac ∨
      (swap I calls (fillSentinelRow luid (some mac)) w.net4).1 ≠ NO_ERROR) := by
  rcases install_cases I calls d luid mac w with ⟨hplace, h⟩ | ⟨-, -, table, h, -⟩ | ⟨hfails, h⟩
  · rw [h]
    exact ⟨rfl, rfl, .inl hplace.2.1⟩
  · rw [h]
    exact ⟨rfl, rfl, .inl rfl⟩
  · rw [h]
    exact ⟨rfl, rfl, .inr hfails.2⟩

/-- **A pass that leaves an entry installed** has found what it holds. -/
theorem current_of_installed (h : (reconcile I calls d w).1.installed = true) :
    ∃ luid mac, Current I calls (reconcile I calls d w).1 luid mac w w := by
  rcases reconcile_cases I calls d w with
    ⟨hcleared, -⟩ | ⟨luid, mac, -, hpresent, haction, hdaemon, -⟩
  · rw [hcleared] at h
    cases h
  · obtain ⟨hgate, hsource⟩ := of_pinAction_eq_pin haction
    obtain ⟨hcfg, hluid, hmac⟩ := @install_keeps I calls { d with luid := some luid } luid w mac
    refine ⟨luid, mac, ?_⟩
    rw [hdaemon]
    refine ⟨hluid, hpresent, fun hrequire => ?_, hsource, hmac⟩
    rw [hcfg] at hrequire
    rw [gate, hrequire, getTable] at hgate
    split at hgate
    · cases hgate
    · exact hgate

/-- Without a LUID nothing is installed. -/
theorem installed_of_no_luid (h : (reconcile I calls d w).1.luid = none) :
    (reconcile I calls d w).1.installed = false := by
  rcases reconcile_cases I calls d w with ⟨hcleared, -⟩ | ⟨luid, mac, -, -, -, hdaemon, -⟩
  · exact hcleared
  · rw [hdaemon, install_keeps.2.1] at h
    cases h

/-- **What is installed at rest** is the entry by the routes and interfaces as they are, with the
MAC of the neighbour table or of the registry. -/
theorem entry_at_rest {cfg : Config} {es : List WorkerEvent} {s : Service}
    (hrun : Run (WorkerStep I) (.start cfg w) es s) (hrest : s.Resting)
    (hinstalled : s.daemon.installed = true) :
    ∃ calls luid mac, lastCalls es = some calls ∧
      Current I calls s.daemon luid mac s.world s.read := by
  have hread := resting_read hrun hrest
  have hindex : s.read.luidToIndex = s.world.luidToIndex := congrArg Watched.luidToIndex hread
  have hforward4 : s.read.forward4 = s.world.forward4 := congrArg Watched.forward4 hread
  have hforward6 : s.read.forward6 = s.world.forward6 := congrArg Watched.forward6 hread
  obtain ⟨calls, d, hcalls, hd⟩ := last_pass hrun hrest.pos
  rw [hd] at hinstalled ⊢
  obtain ⟨luid, mac, hcurrent⟩ := current_of_installed hinstalled
  refine ⟨calls, luid, mac, hcalls, hcurrent.resolved, ?_, ?_, ?_, hcurrent.installed⟩
  · rw [← hindex]
    exact hcurrent.present
  · rw [← hforward4]
    exact hcurrent.route
  · rw [← hcurrent.source, resolvedMac, resolvedMac]
    simp only [hforward6]

end Installed

/-- A worker at rest after its first pass. -/
def rested : Service where
  pos := .waiting
  registered := true
  wake := false
  stop := false
  callbacks := 0
  daemon := afterPass.1
  world := afterPass.2
  read := withRouter
  untouched := true
  still := true

theorem rested_run : Run (WorkerStep plainIpHelper) (.start ethernet withRouter)
    [.register true, .begin, .reconcile .succeed withRouter] rested :=
  .cons ⟨rfl, rfl⟩ (.cons ⟨rfl, rfl⟩ (Run.single ⟨rfl, rfl, rfl, fun _ => rfl, fun _ => rfl, rfl⟩))

/-- The entry of the first pass is the one to hold. -/
theorem rested_entry : ∃ calls luid mac,
    lastCalls [.register true, .begin, .reconcile .succeed withRouter] = some calls ∧
      Current plainIpHelper calls rested.daemon luid mac rested.world rested.read :=
  entry_at_rest rested_run ⟨rfl, rfl, rfl, rfl⟩ (by decide)

/-! ### The end of the worker -/

/-- A step of the worker itself. -/
def WorkerEvent.isOwn : WorkerEvent → Bool
  | .change _ | .other _ | .callback | .setStop => false
  | _ => true

/-- The beginning of a pass. -/
def WorkerEvent.isBegin : WorkerEvent → Bool
  | .begin => true
  | _ => false

/-- The steps that a stopped worker has still to take. -/
def At.stepsLeft : At → ℕ
  | .registering => 5
  | .sleeping => 5
  | .ready => 4
  | .reconciling => 3
  | .waiting => 2
  | .leaving => 1
  | .done => 0

/-- The passes that a stopped worker will still begin. -/
def At.passesLeft : At → ℕ
  | .registering => 1
  | .sleeping => 1
  | .ready => 1
  | _ => 0

section Stopped

variable {I : IpHelper} {s s' : Service} {e : WorkerEvent}

/-- Each step of a stopped worker is one less to take. -/
theorem stopped_step (hstop : s.stop = true) (h : WorkerStep I s e s') :
    s'.stop = true ∧ e.isOwn.toNat + s'.pos.stepsLeft = s.pos.stepsLeft ∧
      e.isBegin.toNat + s'.pos.passesLeft = s.pos.passesLeft := by
  cases e with
  | change w =>
      obtain rfl : s' = _ := h
      exact ⟨hstop, Nat.zero_add _, Nat.zero_add _⟩
  | other w =>
      obtain ⟨-, rfl⟩ := h
      exact ⟨hstop, Nat.zero_add _, Nat.zero_add _⟩
  | callback =>
      obtain ⟨-, rfl⟩ := h
      exact ⟨hstop, Nat.zero_add _, Nat.zero_add _⟩
  | setStop =>
      obtain rfl : s' = _ := h
      exact ⟨rfl, Nat.zero_add _, Nat.zero_add _⟩
  | register ok =>
      obtain ⟨hpos, rfl⟩ := h
      rw [hpos]
      exact ⟨hstop, rfl, rfl⟩
  | begin =>
      obtain ⟨hpos, rfl⟩ := h
      rw [hpos]
      exact ⟨hstop, rfl, rfl⟩
  | reconcile calls read =>
      obtain ⟨hpos, -, -, -, -, rfl⟩ := h
      rw [hpos]
      exact ⟨hstop, rfl, rfl⟩
  | woken =>
      -- the wait answers with the stop event, which has the lower index
      obtain ⟨-, hrunning, -⟩ := h
      rw [hstop] at hrunning
      cases hrunning
  | timeout =>
      obtain ⟨-, hrunning, -⟩ := h
      rw [hstop] at hrunning
      cases hrunning
  | slept =>
      obtain ⟨hpos, rfl⟩ := h
      rw [hpos]
      exact ⟨hstop, rfl, rfl⟩
  | leave =>
      obtain ⟨hpos, -, rfl⟩ := h
      rw [hpos]
      exact ⟨hstop, rfl, rfl⟩
  | withdraw calls =>
      obtain ⟨hpos, rfl⟩ := h
      rw [hpos]
      exact ⟨hstop, rfl, rfl⟩

/-- A stopped worker that has not ended has a step to take. -/
theorem exists_step (I : IpHelper) (hstop : s.stop = true) (hpos : s.pos ≠ .done) :
    ∃ e s', e.isOwn = true ∧ WorkerStep I s e s' := by
  cases hs : s.pos with
  | registering => exact ⟨.register true, _, rfl, hs, rfl⟩
  | ready => exact ⟨.begin, _, rfl, hs, rfl⟩
  | reconciling => exact ⟨.reconcile .succeed s.world, _, rfl, hs, rfl, rfl, fun _ => rfl,
      fun _ => rfl, rfl⟩
  | waiting => exact ⟨.leave, _, rfl, hs, hstop, rfl⟩
  | sleeping => exact ⟨.slept, _, rfl, hs, rfl⟩
  | leaving => exact ⟨.withdraw .succeed, _, rfl, hs, rfl⟩
  | done => exact absurd hs hpos

/-- What the withdrawal leaves: without an entry it touches nothing; with one, and if the deletion
does not fail, there is no entry for the sentinel on the interface. -/
structure Cleared (calls : Calls) (d : Daemon) (w w' : World) : Prop where
  untouched : d.installed = false → w' = w
  gone : ∀ luid, d.luid = some luid → d.installed = true → calls.deleteIpNetEntry2 = none →
    ¬ HasEntry luid w'.net4

theorem cleared_leave (I : IpHelper) (calls : Calls) (d : Daemon) (w : World) :
    Cleared calls d w (leave I calls d w).2 where
  untouched h := by
    rw [leave]
    split
    · rw [withdraw, if_pos (by simp [h])]
    · rfl
  gone luid hluid hinstalled hdelete := by
    rintro ⟨x, hx, hkey⟩
    simp only [leave, hluid, withdraw, hinstalled, not_true, if_false, hdelete] at hx
    exact (IpHelper.mem_deleteIpNetEntry2.mp hx).2 hkey

theorem leave_installed (I : IpHelper) (calls : Calls) {d : Daemon} (w : World)
    (h : d.luid = none → d.installed = false) : (leave I calls d w).1.installed = false := by
  rw [leave]
  split
  · rw [withdraw]
    split
    · rename_i hinstalled
      exact (Bool.not_eq_true _).mp hinstalled
    · rfl
  · rename_i hluid
    exact h hluid

/-- Along every run nothing is installed without a LUID. -/
theorem no_luid_step (hs : s.daemon.luid = none → s.daemon.installed = false)
    (h : WorkerStep I s e s') : s'.daemon.luid = none → s'.daemon.installed = false := by
  obtain ⟨calls, -, -, hdaemon⟩ | ⟨calls, rfl, -⟩ | ⟨-, hdaemon, -⟩ := workerStep_cases h
  · rw [hdaemon]
    exact installed_of_no_luid
  · obtain ⟨-, rfl⟩ := h
    exact fun _ => leave_installed I calls s.world hs
  · rw [hdaemon]
    exact hs

/-- **A stopped worker comes to its end**: whatever the others do, it begins at most one more
pass and takes at most five more steps; until it is done it has a step to take, and when it is
done it has withdrawn. -/
theorem worker_ends {cfg : Config} {w : World} {es es' : List WorkerEvent}
    (hrun : Run (WorkerStep I) (.start cfg w) (es ++ .setStop :: es') s) :
    es'.countP WorkerEvent.isBegin ≤ 1 ∧ es'.countP WorkerEvent.isOwn ≤ 5 ∧
      ((s.pos = .done ∧ s.daemon.installed = false ∧ ∃ calls t t',
          Withdraws I cfg w (es ++ .setStop :: es') s calls t t' ∧
          Cleared calls t.daemon t.world t'.world) ∨
        ∃ e s', e.isOwn = true ∧ WorkerStep I s e s') := by
  have hluid : ∀ {es s}, Run (WorkerStep I) (.start cfg w) es s →
      s.daemon.luid = none → s.daemon.installed = false := fun hrun =>
    hrun.invariant (I := fun s => s.daemon.luid = none → s.daemon.installed = false)
      (fun _ _ _ hs hstep => no_luid_step hs hstep) fun _ => rfl
  obtain ⟨t, -, hrest⟩ := hrun.of_append
  cases hrest with
  | @cons _ t' _ _ _ hset hes' =>
      have hstop : t'.stop = true := by
        obtain rfl : t' = _ := hset
        rfl
      have hend := hes'.invariant (I := fun s => s.stop = true)
        (fun _ _ _ hs hstep => (stopped_step hs hstep).1) hstop
      have hbegins := hes'.countP_le (I := fun s => s.stop = true) (p := WorkerEvent.isBegin)
        (f := fun s => s.pos.passesLeft) (fun _ _ _ hs hstep =>
          ⟨(stopped_step hs hstep).1, (stopped_step hs hstep).2.2.le⟩) hstop
      have howns := hes'.countP_le (I := fun s => s.stop = true) (p := WorkerEvent.isOwn)
        (f := fun s => s.pos.stepsLeft) (fun _ _ _ hs hstep =>
          ⟨(stopped_step hs hstep).1, (stopped_step hs hstep).2.1.le⟩) hstop
      have hsteps : t'.pos.stepsLeft ≤ 5 := by cases t'.pos <;> decide
      have hpasses : t'.pos.passesLeft ≤ 1 := by cases t'.pos <;> decide
      refine ⟨hbegins.trans hpasses, howns.trans hsteps, ?_⟩
      by_cases hdone : s.pos = .done
      · obtain ⟨calls, m, m', hwithdraws, hdaemon⟩ := exists_withdraws hrun hdone
        obtain ⟨es₁, es₂, hes, hbefore, ⟨hpos, rfl⟩, hafter⟩ := hwithdraws
        have hinstalled := leave_installed I calls m.world (hluid hbefore)
        exact .inl ⟨hdone, hdaemon ▸ hinstalled, calls, m, _,
          ⟨es₁, es₂, hes, hbefore, ⟨hpos, rfl⟩, hafter⟩,
          cleared_leave I calls m.daemon m.world⟩
      · exact .inr (exists_step I hend hdone)

end Stopped

/-- A worker that was stopped in the middle of its first pass. -/
def ended : Service :=
  { rested with
    pos := .done
    stop := true
    daemon := (leave plainIpHelper .succeed afterPass.1 afterPass.2).1
    world := (leave plainIpHelper .succeed afterPass.1 afterPass.2).2 }

theorem ended_run : Run (WorkerStep plainIpHelper) (.start ethernet withRouter)
    ([.register true, .begin] ++ .setStop ::
      [.reconcile .succeed withRouter, .leave, .withdraw .succeed]) ended :=
  .cons ⟨rfl, rfl⟩ (.cons ⟨rfl, rfl⟩ (.cons rfl
    (.cons ⟨rfl, rfl, rfl, fun _ => rfl, fun _ => rfl, rfl⟩
      (.cons ⟨rfl, rfl, rfl⟩ (Run.single ⟨rfl, rfl⟩)))))

/-- It has ended as it should. -/
theorem ended_withdrawn :
    let es : List WorkerEvent := [.reconcile .succeed withRouter, .leave, .withdraw .succeed]
    es.countP WorkerEvent.isBegin ≤ 1 ∧ es.countP WorkerEvent.isOwn ≤ 5 ∧
      ((ended.pos = .done ∧ ended.daemon.installed = false ∧ ∃ calls t t',
          Withdraws plainIpHelper ethernet withRouter
            ([.register true, .begin] ++ .setStop :: es) ended calls t t' ∧
          Cleared calls t.daemon t.world t'.world) ∨
        ∃ e s', WorkerEvent.isOwn e = true ∧ WorkerStep plainIpHelper ended e s') :=
  worker_ends ended_run

end V4WithV6Nh.WindowsDaemon
