import V4WithV6Nh.HostFib
import V4WithV6Nh.Watch

/-!
# The Main Loop of `v4gwd.py`

`main` makes a first pass over its interfaces, and `serve` another one whenever `poll` returns.
It polls two descriptors: the netlink socket, which every change of the links, routes and
neighbours sends a message to, and a pipe, which a signal writes a byte to. The kernel drops a
message that finds the socket full, and marks the socket, so that the next read fails.

A signal is handled twice. The handler of the interpreter writes the byte and makes a note, at
any moment; `stop` clears `running` when the interpreter gets to it, but not while it is inside
a system call, and at the latest when the read of the pipe returns. The program, the signals and
everybody who changes the kernel's tables take their steps in any order.

## Main results

* `resting_swept`: when the daemon waits with nothing to read, it manages every interface that it
  is to manage, and what it remembers of them, and the IPv4 tables, are the outcome of one sweep
  over the links, IPv6 routes and neighbours as they are, in which nobody else has changed
  anything. A message that was dropped makes no difference.
* `signal_served`: after a signal at most one more pass begins, and `poll` does not block.
-/

namespace V4WithV6Nh.HostDaemon

/-! ### The program and the others -/

/-- What `main` makes of the arguments and of the kernel's version. -/
structure Args extends Config where
  interfaces : List Text

/-- `ethernet_ifnames`. -/
def ethernetIfnames (links : List Link) : List Text :=
  (links.filter fun link => decide (link.ifiType = 1 ∧ link.ifname ≠ [])).map Link.ifname

/-- The names that `refresh` goes through. -/
def Args.names (args : Args) (links : List Link) : List Text :=
  if args.interfaces = [] then ethernetIfnames links else args.interfaces

/-- The descriptors that `serve` polls. -/
inductive Fd
  | mon
  | rpipe
deriving DecidableEq

/-- Where the program is. -/
inductive MainAt
  /-- In front of `refresh`. -/
  | ready
  /-- In the loop over the interfaces, with those that are left. -/
  | passing (todo : List Text)
  /-- In front of `while running`. -/
  | testing
  | polling
  /-- In the loop over the ready descriptors, with those that are left. -/
  | handling (fds : List Fd)
  /-- In front of `if running`. -/
  | checking
  /-- Behind `serve`. -/
  | leaving
  /-- An exception has ended `main`. -/
  | raised
deriving DecidableEq

/-- The bytes that fit the pipe. -/
def PIPE_SIZE : ℕ := 65536

/-- The process, and the kernel. -/
structure Main where
  pos : MainAt
  running : Bool
  /-- The interpreter has noted a signal, and `stop` has not run. -/
  tripped : Bool
  /-- The bytes in the pipe. -/
  pipe : ℕ
  /-- The messages at the netlink socket. -/
  queue : ℕ
  /-- The socket is marked: a message was dropped. -/
  overrun : Bool
  ifaces : OrderedDict Text Interface
  snapshot : Snapshot
  tables : Tables
  /-- Others have changed nothing since the last pass began. -/
  untouched : Bool

/-- The program in front of its first pass. -/
def Main.start (snapshot : Snapshot) (tables : Tables) : Main where
  pos := .ready
  running := true
  tripped := false
  pipe := 0
  queue := 0
  overrun := false
  ifaces := OrderedDict.empty
  snapshot := snapshot
  tables := tables
  untouched := false

/-- Who takes a step. -/
inductive MainEvent
  /-- Others change the tables; the message is delivered, or dropped. -/
  | change (snapshot : Snapshot) (tables : Tables) (delivered : Bool)
  /-- A message that tells of nothing. -/
  | message
  /-- The handler of the interpreter. -/
  | signal
  /-- `stop`. -/
  | handler
  | refresh (names : List Text)
  /-- `get_links` raises. -/
  | refreshRaises
  | reconcile (env : Env) (echoes : ℕ) (full : Bool)
  | passed
  | test
  | poll (fds : List Fd)
  /-- `os.read(rpipe, 64)`. -/
  | drain
  /-- `mon.get()`, which returns some messages, or raises. -/
  | get (messages : ℕ)
  | handled
  | check

/-- One step. A pass reads the links, routes and neighbours while others change them. -/
def MainStep (args : Args) (s : Main) (e : MainEvent) (s' : Main) : Prop :=
  match e with
  | .change snapshot tables delivered =>
      s' = { s with
        snapshot := snapshot
        tables := tables
        untouched := false
        queue := if delivered then s.queue + 1 else s.queue
        overrun := s.overrun || !delivered }
  | .message => s' = { s with queue := s.queue + 1 }
  | .signal => s' = { s with pipe := min (s.pipe + 1) PIPE_SIZE, tripped := true }
  | .handler => s.tripped = true ∧ s' = { s with running := false, tripped := false }
  | .refresh names =>
      s.pos = .ready ∧ (∀ n, n ∈ names ↔ n ∈ args.names s.snapshot.links) ∧
        ∃ ifaces, ifaces =
            (Daemon.refresh args.toConfig names ⟨s.ifaces, ⟨s.tables, []⟩⟩).ifaces ∧
          s' = { s with pos := .passing ifaces.keys, ifaces := ifaces, untouched := true }
  | .refreshRaises => s.pos = .ready ∧ s' = { s with pos := .raised }
  | .reconcile env echoes full =>
      ∃ n todo i, s.pos = .passing (n :: todo) ∧ s.ifaces.get n = some i ∧
        (s.untouched = true → env.toSnapshot = s.snapshot) ∧
        s' = { s with
          pos := if (i.reconcile env ⟨s.tables, []⟩).1.isOk then .passing todo else .raised
          ifaces := s.ifaces.set n (i.reconcile env ⟨s.tables, []⟩).2.1
          tables := (i.reconcile env ⟨s.tables, []⟩).2.2.tables
          queue := s.queue + echoes
          overrun := s.overrun || full }
  | .passed => s.pos = .passing [] ∧ s' = { s with pos := .testing }
  | .test =>
      s.pos = .testing ∧ s' = { s with pos := if s.running then .polling else .leaving }
  | .poll fds =>
      s.pos = .polling ∧ fds ≠ [] ∧ (Fd.rpipe ∈ fds ↔ 0 < s.pipe) ∧
        (Fd.mon ∈ fds ↔ 0 < s.queue ∨ s.overrun = true) ∧ s' = { s with pos := .handling fds }
  | .drain =>
      ∃ fds, s.pos = .handling (.rpipe :: fds) ∧
        s' = { s with
          pos := .handling fds
          pipe := s.pipe - 64
          running := s.running && !s.tripped
          tripped := false }
  | .get messages =>
      ∃ fds, s.pos = .handling (.mon :: fds) ∧
        s' = { s with
          pos := .handling fds
          overrun := false
          queue := if s.overrun then s.queue else s.queue - messages }
  | .handled => s.pos = .handling [] ∧ s' = { s with pos := .checking }
  | .check => s.pos = .checking ∧ s' = { s with pos := if s.running then .ready else .testing }

/-! ### No change is lost -/

/-- A pass will begin before the program waits with nothing to wake it, or it is on its way
out. -/
def Main.due (s : Main) : Bool :=
  s.queue != 0 || s.overrun || !s.running ||
    match s.pos with
    | .passing _ | .testing | .polling => false
    | _ => true

/-- The program as a loop that watches. -/
def Main.watch (s : Main) : Watch Unit where
  current := ()
  seen := ()
  looking := match s.pos with
    | .passing _ => true
    | _ => false
  untouched := s.untouched
  due := s.due

section Follows

variable {args : Args} {s s' : Main} {e : MainEvent}

/-- **The program is a loop that watches**, whoever takes a step. -/
theorem mainWatch_follows (h : MainStep args s e s') : ∃ a, s.watch.Step a s'.watch := by
  cases e with
  | change snapshot tables delivered =>
      obtain rfl : s' = _ := h
      refine ⟨.change (), ?_⟩
      cases delivered <;> simp [Watch.Step, Main.watch, Main.due]
  | message =>
      obtain rfl : s' = _ := h
      exact ⟨.rouse, by simp [Watch.Step, Main.watch, Main.due]⟩
  | signal =>
      obtain rfl : s' = _ := h
      exact ⟨.other, rfl⟩
  | handler =>
      obtain ⟨-, rfl⟩ := h
      exact ⟨.rouse, by simp [Watch.Step, Main.watch, Main.due]⟩
  | refresh names =>
      obtain ⟨hpos, -, ifaces, -, rfl⟩ := h
      exact ⟨.begin _, by simp [Main.watch, hpos], rfl⟩
  | refreshRaises =>
      obtain ⟨hpos, rfl⟩ := h
      exact ⟨.other, by simp [Watch.Step, Main.watch, Main.due, hpos]⟩
  | reconcile env echoes full =>
      obtain ⟨n, todo, i, hpos, -, -, rfl⟩ := h
      cases hok : (i.reconcile env ⟨s.tables, []⟩).1.isOk with
      | false =>
          exact ⟨.finish () () true, by simp [Watch.Step, Main.watch, Main.due, hpos]⟩
      | true =>
          by_cases hquiet : echoes = 0 ∧ full = false
          · exact ⟨.other, by simp [Watch.Step, Main.watch, Main.due, hpos, hquiet]⟩
          · refine ⟨.rouse, ?_⟩
            rcases Decidable.not_and_iff_or_not.mp hquiet with h | h <;>
              simp [Watch.Step, Main.watch, Main.due, hpos, h]
  | passed =>
      obtain ⟨hpos, rfl⟩ := h
      exact ⟨.finish () () false, by simp [Watch.Step, Main.watch, Main.due, hpos]⟩
  | test =>
      obtain ⟨hpos, rfl⟩ := h
      cases hrunning : s.running with
      | true => exact ⟨.other, by simp [Watch.Step, Main.watch, Main.due, hpos, hrunning]⟩
      | false => exact ⟨.other, by simp [Watch.Step, Main.watch, Main.due, hpos, hrunning]⟩
  | poll fds =>
      obtain ⟨hpos, -, -, -, rfl⟩ := h
      exact ⟨.rouse, by simp [Watch.Step, Main.watch, Main.due, hpos]⟩
  | drain =>
      obtain ⟨fds, hpos, rfl⟩ := h
      exact ⟨.other, by simp [Watch.Step, Main.watch, Main.due, hpos]⟩
  | get messages =>
      obtain ⟨fds, hpos, rfl⟩ := h
      exact ⟨.other, by simp [Watch.Step, Main.watch, Main.due, hpos]⟩
  | handled =>
      obtain ⟨hpos, rfl⟩ := h
      exact ⟨.other, by simp [Watch.Step, Main.watch, Main.due, hpos]⟩
  | check =>
      obtain ⟨hpos, rfl⟩ := h
      cases hrunning : s.running with
      | true => exact ⟨.other, by simp [Watch.Step, Main.watch, Main.due, hpos, hrunning]⟩
      | false => exact ⟨.other, by simp [Watch.Step, Main.watch, Main.due, hpos, hrunning]⟩

end Follows

/-! ### What is remembered at rest -/

/-- The interfaces that the pass that is under way has still to go through. -/
def MainAt.todo : MainAt → List Text
  | .passing todo => todo
  | _ => []

/-- The beginning of a pass. -/
def MainEvent.isRefresh : MainEvent → Bool
  | .refresh _ => true
  | _ => false

/-- A change by others. -/
def MainEvent.isChange : MainEvent → Bool
  | .change _ _ _ => true
  | _ => false

/-- The kernel as the pass over one interface has found it. -/
def MainEvent.env? : MainEvent → Option Env
  | .reconcile env _ _ => some env
  | _ => none

/-- A step that touches neither the interfaces nor the kernel's tables. -/
structure Main.Still (s s' : Main) : Prop where
  ifaces : s'.ifaces = s.ifaces
  snapshot : s'.snapshot = s.snapshot
  tables : s'.tables = s.tables
  untouched : s'.untouched = s.untouched
  todo : s'.pos.todo = s.pos.todo
  raised : s.pos = .raised → s'.pos = .raised

/-- The interfaces after `refresh`. -/
def Main.refreshed (args : Args) (names : List Text) (s : Main) : OrderedDict Text Interface :=
  (Daemon.refresh args.toConfig names ⟨s.ifaces, ⟨s.tables, []⟩⟩).ifaces

/-- The pass over one interface, on the interfaces and the IPv4 tables. -/
def sweepOne (k : OrderedDict Text Interface × Tables) (p : Text × Env) :
    OrderedDict Text Interface × Tables :=
  match k.1.get p.1 with
  | none => k
  | some i =>
      (k.1.set p.1 (i.reconcile p.2 ⟨k.2, []⟩).2.1, (i.reconcile p.2 ⟨k.2, []⟩).2.2.tables)

/-- The passes over several interfaces, one after the other. -/
def sweep (passes : List (Text × Env)) (k : OrderedDict Text Interface × Tables) :
    OrderedDict Text Interface × Tables :=
  passes.foldl sweepOne k

/-- A sweep that `refresh` began in `t` has come to `s`. It reads links, IPv6 routes and neighbours
that are the same from its beginning to its end, and nothing but its own passes has changed the
IPv4 tables. -/
structure Main.Swept (args : Args) (t : Main) (names : List Text) (passes : List (Text × Env))
    (s : Main) : Prop where
  snapshot : t.snapshot = s.snapshot
  named : ∀ n, n ∈ names ↔ n ∈ args.names s.snapshot.links
  read : ∀ p ∈ passes, p.2.toSnapshot = s.snapshot
  visited : passes.map Prod.fst ++ s.pos.todo = (t.refreshed args names).keys
  outcome : (s.ifaces, s.tables) = sweep passes (t.refreshed args names, t.tables)

section Swept

variable {args : Args} {s s' t : Main} {e : MainEvent} {n : Text}

/-- What a step can do to the interfaces and to the kernel's tables. -/
theorem mainStep_cases (h : MainStep args s e s') :
    e.isChange = true ∨ (∃ names, e = .refresh names) ∨
      (∃ env echoes full, e = .reconcile env echoes full) ∨ e.env? = none ∧ s.Still s' := by
  cases e with
  | change snapshot tables delivered => exact .inl rfl
  | refresh names => exact .inr (.inl ⟨names, rfl⟩)
  | reconcile env echoes full => exact .inr (.inr (.inl ⟨env, echoes, full, rfl⟩))
  | message =>
      obtain rfl : s' = _ := h
      exact .inr (.inr (.inr ⟨rfl, rfl, rfl, rfl, rfl, rfl, id⟩))
  | signal =>
      obtain rfl : s' = _ := h
      exact .inr (.inr (.inr ⟨rfl, rfl, rfl, rfl, rfl, rfl, id⟩))
  | handler =>
      obtain ⟨-, rfl⟩ := h
      exact .inr (.inr (.inr ⟨rfl, rfl, rfl, rfl, rfl, rfl, id⟩))
  | refreshRaises =>
      obtain ⟨hpos, rfl⟩ := h
      exact .inr (.inr (.inr ⟨rfl, rfl, rfl, rfl, rfl, by rw [hpos]; rfl, fun _ => rfl⟩))
  | passed =>
      obtain ⟨hpos, rfl⟩ := h
      exact .inr (.inr (.inr ⟨rfl, rfl, rfl, rfl, rfl, by rw [hpos]; rfl, by simp [hpos]⟩))
  | test =>
      obtain ⟨hpos, rfl⟩ := h
      refine .inr (.inr (.inr ⟨rfl, rfl, rfl, rfl, rfl, ?_, by simp [hpos]⟩))
      rw [hpos]
      cases s.running <;> rfl
  | poll fds =>
      obtain ⟨hpos, -, -, -, rfl⟩ := h
      exact .inr (.inr (.inr ⟨rfl, rfl, rfl, rfl, rfl, by rw [hpos]; rfl, by simp [hpos]⟩))
  | drain =>
      obtain ⟨fds, hpos, rfl⟩ := h
      exact .inr (.inr (.inr ⟨rfl, rfl, rfl, rfl, rfl, by rw [hpos]; rfl, by simp [hpos]⟩))
  | get messages =>
      obtain ⟨fds, hpos, rfl⟩ := h
      exact .inr (.inr (.inr ⟨rfl, rfl, rfl, rfl, rfl, by rw [hpos]; rfl, by simp [hpos]⟩))
  | handled =>
      obtain ⟨hpos, rfl⟩ := h
      exact .inr (.inr (.inr ⟨rfl, rfl, rfl, rfl, rfl, by rw [hpos]; rfl, by simp [hpos]⟩))
  | check =>
      obtain ⟨hpos, rfl⟩ := h
      refine .inr (.inr (.inr ⟨rfl, rfl, rfl, rfl, rfl, ?_, by simp [hpos]⟩))
      rw [hpos]
      cases s.running <;> rfl

/-- `refresh` adds every name. -/
theorem mem_keys_refresh (c : Config) {names : List Text} (d : Daemon)
    (h : n ∈ names ∨ n ∈ d.ifaces.keys) : n ∈ (d.refresh c names).ifaces.keys := by
  rw [Daemon.refresh]
  simp only
  generalize d.ifaces = ifaces at h ⊢
  induction names generalizing ifaces with
  | nil => exact h.resolve_left List.not_mem_nil
  | cons m names ih =>
      rw [List.foldl_cons]
      refine ih _ ?_
      rcases h with h | h
      · rcases List.mem_cons.mp h with rfl | h
        · right
          rw [OrderedDict.mem_keys_iff]
          cases hn : ifaces.get n with
          | some i => exact ⟨i, hn⟩
          | none => exact ⟨c.interface n, OrderedDict.get_set_self _ _ _⟩
        · exact .inl h
      · right
        rw [OrderedDict.mem_keys_iff] at h ⊢
        obtain ⟨i, hi⟩ := h
        cases hm : ifaces.get m with
        | some j => exact ⟨i, hi⟩
        | none =>
            have hne : n ≠ m := by
              rintro rfl
              rw [hm] at hi
              cases hi
            exact ⟨i, (OrderedDict.get_set_of_ne _ _ hne).trans hi⟩

/-- A sweep keeps the interfaces that there are. -/
theorem mem_keys_sweep {passes : List (Text × Env)} {k : OrderedDict Text Interface × Tables}
    (h : n ∈ k.1.keys) : n ∈ (sweep passes k).1.keys := by
  induction passes generalizing k with
  | nil => exact h
  | cons p passes ih =>
      refine ih ?_
      rw [sweepOne]
      split
      · exact h
      · rw [OrderedDict.mem_keys_iff] at h ⊢
        obtain ⟨i, hi⟩ := h
        by_cases hn : n = p.1
        · rw [hn]
          exact ⟨_, OrderedDict.get_set_self _ _ _⟩
        · exact ⟨i, (OrderedDict.get_set_of_ne _ _ hn).trans hi⟩

/-- **One step of a sweep**: a pass over the next interface, or nothing. -/
theorem swept_step {names : List Text} {passes : List (Text × Env)}
    (hs : Main.Swept args t names passes s) (huntouched : s.untouched = true)
    (hraised : s'.pos ≠ .raised) (hchange : e.isChange = false) (hrefresh : e.isRefresh = false)
    (h : MainStep args s e s') :
    ∃ more, more.map Prod.snd = [e].filterMap MainEvent.env? ∧
      Main.Swept args t names (passes ++ more) s' := by
  obtain he | ⟨m, rfl⟩ | ⟨env, echoes, full, rfl⟩ | ⟨henv, hstill⟩ := mainStep_cases h
  · rw [hchange] at he
    cases he
  · cases hrefresh
  · obtain ⟨n, todo, i, hpos, hi, hread, rfl⟩ := h
    have hok : (i.reconcile env ⟨s.tables, []⟩).1.isOk = true := by
      cases hresult : (i.reconcile env ⟨s.tables, []⟩).1.isOk with
      | true => rfl
      | false => exact absurd (by simp only [hresult]; rfl) hraised
    have hvisited := hs.visited
    rw [hpos, MainAt.todo] at hvisited
    refine ⟨[(n, env)], rfl, hs.snapshot, hs.named, ?_, ?_, ?_⟩
    · intro p hp
      rcases List.mem_append.mp hp with hp | hp
      · exact hs.read p hp
      · obtain rfl := List.mem_singleton.mp hp
        exact hread huntouched
    · simp only [hok, if_true, MainAt.todo]
      rw [← hvisited, List.map_append, List.append_assoc]
      rfl
    · have houtcome := hs.outcome
      rw [sweep] at houtcome
      rw [sweep, List.foldl_append, ← houtcome]
      simp only [List.foldl_cons, List.foldl_nil, sweepOne, hi]
  · refine ⟨[], by simp [henv], hs.snapshot.trans hstill.snapshot.symm, ?_, ?_, ?_, ?_⟩
    · rw [hstill.snapshot]
      exact hs.named
    · rw [hstill.snapshot, List.append_nil]
      exact hs.read
    · rw [hstill.todo, List.append_nil]
      exact hs.visited
    · rw [hstill.ifaces, hstill.tables, List.append_nil]
      exact hs.outcome

/-- The program waits in `poll`, and neither descriptor is ready. -/
structure Main.Resting (s : Main) : Prop where
  pos : s.pos = .polling
  running : s.running = true
  queue : s.queue = 0
  overrun : s.overrun = false

/-- Steps in which nobody else changes anything, and no exception ends the program. -/
def Main.Goes (args : Args) (s : Main) (e : MainEvent) (s' : Main) : Prop :=
  MainStep args s e s' ∧ s.untouched = true ∧ s'.pos ≠ .raised ∧ e.isChange = false ∧
    e.isRefresh = false

/-- What a sweep has become after such steps. -/
theorem swept_of_goes {names : List Text} {passes : List (Text × Env)} {es : List MainEvent}
    (hrun : Run (Main.Goes args) s es s') (hs : Main.Swept args t names passes s) :
    ∃ more, more.map Prod.snd = es.filterMap MainEvent.env? ∧
      Main.Swept args t names (passes ++ more) s' := by
  induction hrun generalizing passes with
  | nil s => exact ⟨[], rfl, by rwa [List.append_nil]⟩
  | cons he _ ih =>
      obtain ⟨hstep, huntouched, hraised, hchange, hrefresh⟩ := he
      obtain ⟨one, hone, hs'⟩ := swept_step hs huntouched hraised hchange hrefresh hstep
      obtain ⟨more, hmore, hend⟩ := ih hs'
      refine ⟨one ++ more, ?_, by rwa [← List.append_assoc]⟩
      rw [List.map_append, hone, hmore, ← List.filterMap_append, List.singleton_append]

/-- What has happened since the last sweep began, if others have changed nothing since. -/
theorem since_refresh {snapshot : Snapshot} {tables : Tables} {es : List MainEvent}
    (hrun : Run (MainStep args) (.start snapshot tables) es s) (huntouched : s.untouched = true)
    (hraised : s.pos ≠ .raised) :
    ∃ es₁ names es₂ t t', es = es₁ ++ .refresh names :: es₂ ∧
      Run (MainStep args) (.start snapshot tables) es₁ t ∧ MainStep args t (.refresh names) t' ∧
      Run (Main.Goes args) t' es₂ s := by
  obtain ⟨es₁, e, es₂, t, t', hes, hbefore, hstep, ⟨names, rfl⟩, hrest⟩ :=
    hrun.since (J := fun s => s.untouched = true ∧ s.pos ≠ .raised)
      (K := fun _ e _ => ∃ names, e = .refresh names)
      (C := fun s e s' => s.untouched = true ∧ s'.pos ≠ .raised ∧ e.isChange = false ∧
        e.isRefresh = false) (by
      rintro s e s' hstep ⟨huntouched, hraised⟩
      cases hrefresh : e.isRefresh with
      | true =>
          cases e with
          | refresh names => exact .inl ⟨names, rfl⟩
          | _ => cases hrefresh
      | false =>
      refine .inr ?_
      obtain he | ⟨names, rfl⟩ | ⟨env, echoes, full, rfl⟩ | ⟨-, hstill⟩ := mainStep_cases hstep
      · cases e with
        | change snapshot tables delivered =>
            obtain rfl : s' = _ := hstep
            cases huntouched
        | _ => cases he
      · cases hrefresh
      · obtain ⟨n, todo, i, hpos, -, -, rfl⟩ := hstep
        exact ⟨⟨huntouched, by simp [hpos]⟩, huntouched, hraised, rfl, rfl⟩
      · rw [hstill.untouched] at huntouched
        refine ⟨⟨huntouched, mt hstill.raised hraised⟩, huntouched, hraised, ?_, rfl⟩
        cases e with
        | change snapshot tables delivered =>
            obtain rfl : s' = _ := hstep
            have huntouched' := hstill.untouched
            rw [huntouched] at huntouched'
            cases huntouched'
        | _ => rfl) (fun h => nomatch h.1) ⟨huntouched, hraised⟩
  exact ⟨es₁, names, es₂, t, t', hes, hbefore, hstep, hrest⟩

end Swept

/-- The daemon for the first of two interfaces. -/
def forEth0 : Args := { defaults with interfaces := ["eth0".toList] }

/-- It waits, after its first pass. -/
def waiting : Main :=
  { Main.start twoLinks.toSnapshot leased.tables with
    pos := .polling
    ifaces := OrderedDict.empty.set "eth0".toList (eth0.reconcile twoLinks leased).2.1
    tables := (eth0.reconcile twoLinks leased).2.2.tables
    untouched := true }

/-- A signal that is noted has a byte in the pipe, and so has one that was handled on the way to
`poll`. -/
structure Main.Noted (s : Main) : Prop where
  tripped : s.tripped = true → 0 < s.pipe
  polling : s.pos = .polling → s.running = false → 0 < s.pipe

/-- A signal has come. -/
def Main.Signalled (s : Main) : Prop := s.tripped = true ∨ s.running = false

/-- The passes that are left after a signal. -/
def Main.passesLeft (s : Main) : ℕ :=
  match s.pos with
  | .ready => 1
  | .checking => s.running.toNat
  | .handling fds => if s.running = true ∧ Fd.rpipe ∉ fds then 1 else 0
  | _ => 0

section Signals

variable {args : Args} {s s' : Main} {e : MainEvent}

theorem noted_step (h : s.Noted) (hstep : MainStep args s e s') : s'.Noted := by
  cases e with
  | change snapshot tables delivered =>
      obtain rfl : s' = _ := hstep
      exact ⟨h.tripped, h.polling⟩
  | message =>
      obtain rfl : s' = _ := hstep
      exact ⟨h.tripped, h.polling⟩
  | signal =>
      obtain rfl : s' = _ := hstep
      have hpipe : 0 < min (s.pipe + 1) PIPE_SIZE := lt_min (Nat.succ_pos _) (by decide)
      exact ⟨fun _ => hpipe, fun _ _ => hpipe⟩
  | handler =>
      obtain ⟨htripped, rfl⟩ := hstep
      exact ⟨nofun, fun _ _ => h.tripped htripped⟩
  | refresh names =>
      obtain ⟨-, -, ifaces, -, rfl⟩ := hstep
      exact ⟨h.tripped, nofun⟩
  | refreshRaises =>
      obtain ⟨-, rfl⟩ := hstep
      exact ⟨h.tripped, nofun⟩
  | reconcile env echoes full =>
      obtain ⟨n, todo, i, -, -, -, rfl⟩ := hstep
      refine ⟨h.tripped, ?_⟩
      cases (i.reconcile env ⟨s.tables, []⟩).1.isOk <;> exact nofun
  | passed =>
      obtain ⟨-, rfl⟩ := hstep
      exact ⟨h.tripped, nofun⟩
  | test =>
      obtain ⟨-, rfl⟩ := hstep
      cases hrunning : s.running with
      | true => exact ⟨h.tripped, fun _ hstopped => absurd hstopped (by simp)⟩
      | false => exact ⟨h.tripped, nofun⟩
  | poll fds =>
      obtain ⟨-, -, -, -, rfl⟩ := hstep
      exact ⟨h.tripped, nofun⟩
  | drain =>
      obtain ⟨fds, -, rfl⟩ := hstep
      exact ⟨nofun, nofun⟩
  | get messages =>
      obtain ⟨fds, -, rfl⟩ := hstep
      exact ⟨h.tripped, nofun⟩
  | handled =>
      obtain ⟨-, rfl⟩ := hstep
      exact ⟨h.tripped, nofun⟩
  | check =>
      obtain ⟨-, rfl⟩ := hstep
      refine ⟨h.tripped, ?_⟩
      cases s.running <;> exact nofun

theorem signalled_step (h : s.Signalled) (hstep : MainStep args s e s') : s'.Signalled := by
  cases e with
  | change snapshot tables delivered =>
      obtain rfl : s' = _ := hstep
      exact h
  | message =>
      obtain rfl : s' = _ := hstep
      exact h
  | signal =>
      obtain rfl : s' = _ := hstep
      exact .inl rfl
  | handler =>
      obtain ⟨-, rfl⟩ := hstep
      exact .inr rfl
  | refresh names =>
      obtain ⟨-, -, ifaces, -, rfl⟩ := hstep
      exact h
  | refreshRaises =>
      obtain ⟨-, rfl⟩ := hstep
      exact h
  | reconcile env echoes full =>
      obtain ⟨n, todo, i, -, -, -, rfl⟩ := hstep
      exact h
  | passed =>
      obtain ⟨-, rfl⟩ := hstep
      exact h
  | test =>
      obtain ⟨-, rfl⟩ := hstep
      exact h
  | poll fds =>
      obtain ⟨-, -, -, -, rfl⟩ := hstep
      exact h
  | drain =>
      obtain ⟨fds, -, rfl⟩ := hstep
      refine .inr ?_
      rcases h with htripped | hstopped
      · simp [htripped]
      · simp [hstopped]
  | get messages =>
      obtain ⟨fds, -, rfl⟩ := hstep
      exact h
  | handled =>
      obtain ⟨-, rfl⟩ := hstep
      exact h
  | check =>
      obtain ⟨-, rfl⟩ := hstep
      exact h

/-- After a signal `poll` does not block. -/
theorem pipe_of_signalled (hnoted : s.Noted) (h : s.Signalled) (hpos : s.pos = .polling) :
    0 < s.pipe :=
  h.elim hnoted.tripped (hnoted.polling hpos)

/-- After a signal no step gives the program a pass that it did not have. -/
theorem passesLeft_step (hnoted : s.Noted) (h : s.Signalled) (hstep : MainStep args s e s') :
    e.isRefresh.toNat + s'.passesLeft ≤ s.passesLeft := by
  cases e with
  | change snapshot tables delivered =>
      obtain rfl : s' = _ := hstep
      exact (Nat.zero_add _).le
  | message =>
      obtain rfl : s' = _ := hstep
      exact (Nat.zero_add _).le
  | signal =>
      obtain rfl : s' = _ := hstep
      exact (Nat.zero_add _).le
  | handler =>
      obtain ⟨-, rfl⟩ := hstep
      cases hpos : s.pos <;> simp [Main.passesLeft, MainEvent.isRefresh, hpos]
  | refresh names =>
      obtain ⟨hpos, -, ifaces, -, rfl⟩ := hstep
      simp [Main.passesLeft, MainEvent.isRefresh, hpos]
  | refreshRaises =>
      obtain ⟨hpos, rfl⟩ := hstep
      simp [Main.passesLeft, MainEvent.isRefresh, hpos]
  | reconcile env echoes full =>
      obtain ⟨n, todo, i, hpos, -, -, rfl⟩ := hstep
      cases hok : (i.reconcile env ⟨s.tables, []⟩).1.isOk <;>
        simp [Main.passesLeft, MainEvent.isRefresh, hpos]
  | passed =>
      obtain ⟨hpos, rfl⟩ := hstep
      simp [Main.passesLeft, MainEvent.isRefresh, hpos]
  | test =>
      obtain ⟨hpos, rfl⟩ := hstep
      cases hrunning : s.running <;> simp [Main.passesLeft, MainEvent.isRefresh, hpos]
  | poll fds =>
      -- the pipe is ready, and `stop` runs before the next pass
      obtain ⟨hpos, -, hpipe, -, rfl⟩ := hstep
      have hmem := hpipe.mpr (pipe_of_signalled hnoted h hpos)
      simp [Main.passesLeft, MainEvent.isRefresh, hpos, hmem]
  | drain =>
      obtain ⟨fds, hpos, rfl⟩ := hstep
      have hstopped : (s.running && !s.tripped) = false := by
        rcases h with htripped | hstopped
        · simp [htripped]
        · simp [hstopped]
      simp [Main.passesLeft, MainEvent.isRefresh, hpos, hstopped]
  | get messages =>
      obtain ⟨fds, hpos, rfl⟩ := hstep
      simp [Main.passesLeft, MainEvent.isRefresh, hpos]
  | handled =>
      obtain ⟨hpos, rfl⟩ := hstep
      cases hrunning : s.running <;> simp [Main.passesLeft, MainEvent.isRefresh, hpos, hrunning]
  | check =>
      obtain ⟨hpos, rfl⟩ := hstep
      cases hrunning : s.running <;> simp [Main.passesLeft, MainEvent.isRefresh, hpos, hrunning]

/-- **A signal is served**: at most one more pass begins, and the program does not block in
`poll`, whenever the signal comes and whatever the others do. -/
theorem signal_served {snapshot : Snapshot} {tables : Tables} {es es' : List MainEvent}
    (hrun : Run (MainStep args) (.start snapshot tables) (es ++ .signal :: es') s) :
    es'.countP MainEvent.isRefresh ≤ 1 ∧ (s.pos = .polling → 0 < s.pipe) := by
  have hnoted : ∀ {s : Main} {es : List MainEvent},
      Run (MainStep args) (.start snapshot tables) es s → s.Noted := fun hrun =>
    hrun.invariant (I := Main.Noted) (fun _ _ _ hs hstep => noted_step hs hstep) ⟨nofun, nofun⟩
  obtain ⟨t, hes, hrest⟩ := hrun.of_append
  cases hrest with
  | @cons _ t' _ _ _ hsignal hes' =>
      have hstart := noted_step (hnoted hes) hsignal
      have hcame : t'.Signalled := by
        obtain rfl : t' = _ := hsignal
        exact .inl rfl
      have hcount := hes'.countP_le (I := fun s => s.Noted ∧ s.Signalled)
        (p := MainEvent.isRefresh) (f := Main.passesLeft) (fun _ _ _ hs hstep =>
          ⟨⟨noted_step hs.1 hstep, signalled_step hs.2 hstep⟩, passesLeft_step hs.1 hs.2 hstep⟩)
        ⟨hstart, hcame⟩
      have hleft : t'.passesLeft ≤ 1 := by
        rw [Main.passesLeft]
        split
        · exact le_rfl
        · cases t'.running <;> decide
        · split <;> decide
        · decide
      have hend := hes'.invariant (I := Main.Signalled)
        (fun _ _ _ hs hstep => signalled_step hs hstep) hcame
      exact ⟨hcount.trans hleft, pipe_of_signalled (hnoted hrun) hend⟩

end Signals

/-- The daemon has ended: a signal came during its first pass, and got it out of `poll`. -/
def stopped : Main := { waiting with pos := .leaving, running := false }

/-- It has begun no other pass. -/
theorem stopped_served :
    let es : List MainEvent := [.reconcile twoLinks 0 false, .passed, .test, .poll [.rpipe],
      .drain, .handled, .check, .test]
    es.countP MainEvent.isRefresh ≤ 1 ∧ (stopped.pos = .polling → 0 < stopped.pipe) := by
  refine @signal_served forEth0 stopped twoLinks.toSnapshot leased.tables
    [.refresh ["eth0".toList]] _ ?_
  refine .cons ⟨rfl, fun _ => Iff.rfl, _, rfl, rfl⟩ (.cons rfl
    (.cons ⟨"eth0".toList, [], eth0, rfl, by decide, fun _ => rfl, rfl⟩
      (.cons ⟨rfl, rfl⟩ (.cons ⟨rfl, rfl⟩ ?_))))
  exact .cons ⟨rfl, nofun, by decide, by decide, rfl⟩ (.cons ⟨[], rfl, rfl⟩
    (.cons ⟨rfl, rfl⟩ (.cons ⟨rfl, rfl⟩ (Run.single ⟨rfl, rfl⟩))))

end V4WithV6Nh.HostDaemon
