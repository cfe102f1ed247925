import V4WithV6Nh.Framing
import V4WithV6Nh.Manager
import V4WithV6Nh.Raising
import V4WithV6Nh.Run

/-!
# The Loop of `v4gwrd.py`

`serve` waits for the FIFO, the netlink monitor and the signal pipe, or for a timeout. It
appends what it reads from the FIFO to a buffer, takes the complete lines out of it one by
one, and hands each to `handle_line`; a netlink event or a timeout sweeps the table.

A wake carries what the system calls return, and the kernel state that each turn sees. An
exception that a turn raises leaves the loop. `turns` records what the loop did, in order,
and is read by nothing.

## Main results

* `serve_turns`: the loop makes turns of `Manager.step` and nothing else.
* `serve_frames`: whatever the chunks in which the FIFO is read, and whatever wakes come
  between, the lines handled are the terminated lines of the stream.
-/

namespace V4WithV6Nh.Manager

/-! ### The loop -/

/-- The state of `serve`: its buffer, the world, and what it did. -/
structure Loop where
  buf : List UInt8
  world : World
  /-- The turns taken, in order, each with what it read. -/
  turns : List (Env × Event)

/-- The loop at its start. -/
def Loop.start (w : World) : Loop := ⟨[], w, []⟩

/-- The lines that `handle_line` was called with, in order. -/
def Loop.calls (s : Loop) : List Text :=
  s.turns.filterMap fun e =>
    match e.2 with
    | .line line => some line
    | .sweep => none

/-- One entry of the list that `poll` returns. -/
inductive Ready
  /-- Signal bytes are drained. -/
  | signal
  /-- `os.read(fifo_fd, 4096)`, `none` for an `OSError`; the `k`-th line of the chunk is
  handled in the `k`-th state. -/
  | fifo (chunk : Option (List UInt8)) (env : ℕ → Env)
  /-- The monitor is drained, and the table swept if the daemon is still running. -/
  | netlink (running : Bool) (env : Env)

/-- What `poll` returns: nothing in time, or a list of entries. -/
inductive Wake
  | timeout (env : Env)
  | events (ready : List Ready)

section Loop

variable [UnicodeTables]

/-- A turn of the daemon. -/
def turn (env : Env) (ev : Event) (s : Loop) : Except NetlinkError Unit × Loop :=
  ((step env ev s.world).1,
    { s with world := (step env ev s.world).2, turns := s.turns ++ [(env, ev)] })

/-- `while b"\n" in buf`: the first line is taken out of the buffer and handled. -/
def drain (env : ℕ → Env) (s : Loop) : Except NetlinkError Unit × Loop :=
  match _h : cut 0x0a s.buf with
  | none => (.ok (), s)
  | some (line, rest) =>
      andThen (turn (env 0) (.line (decode line)) { s with buf := rest }) fun s' =>
        drain (fun k => env (k + 1)) ⟨rest, s'.world, s'.turns⟩
termination_by s.buf.length
decreasing_by exact length_lt_of_cut _h

/-- The body of the loop over `events`. -/
def serveReady : Ready → Loop → Except NetlinkError Unit × Loop
  | .signal, s => (.ok (), s)
  | .fifo none _, s => (.ok (), s)
  | .fifo (some chunk) env, s => drain env { s with buf := s.buf ++ chunk }
  | .netlink running env, s => if running then turn env .sweep s else (.ok (), s)

/-- One round of `while running`. -/
def serveWake : Wake → Loop → Except NetlinkError Unit × Loop
  | .timeout env, s => turn env .sweep s
  | .events ready, s => forEach serveReady ready s

/-- `serve`, for the wakes that come while the daemon is running. -/
def serve : List Wake → Loop → Except NetlinkError Unit × Loop := forEach serveWake

end Loop

/-! ### What is read -/

/-- What an entry reads from the FIFO. -/
def Ready.read : Ready → List UInt8
  | .signal => []
  | .fifo chunk _ => chunk.getD []
  | .netlink _ _ => []

/-- What a wake reads from the FIFO. -/
def Wake.read : Wake → List UInt8
  | .timeout _ => []
  | .events ready => ready.flatMap Ready.read

/-- The stream: what all wakes read from the FIFO. -/
def received (wakes : List Wake) : List UInt8 := wakes.flatMap Wake.read

/-! ### The turns of the loop -/

section Turns

variable [UnicodeTables] {env : Env} {ev : Event} {s : Loop} {w : World}

/-- What a turn preserves, and what it leaves when it raises. -/
def TurnKeeps (I E : Loop → Prop) : Prop :=
  (∀ s buf, I s → I { s with buf := buf }) ∧ ∀ env ev s, I s → Ends I E (turn env ev s)

/-- Without a line in the buffer there is nothing to do. -/
theorem drain_of_cut_eq_none {env : ℕ → Env} (hcut : cut 0x0a s.buf = none) :
    drain env s = (.ok (), s) := by
  rw [drain]
  split
  · rfl
  · rename_i hcut'
    rw [hcut] at hcut'
    cases hcut'

/-- The first line is handled, and then the rest of the buffer. -/
theorem drain_of_cut_eq_some {env : ℕ → Env} {line rest : List UInt8}
    (hcut : cut 0x0a s.buf = some (line, rest)) :
    drain env s = andThen (turn (env 0) (.line (decode line)) { s with buf := rest })
      fun s' => drain (fun k => env (k + 1)) ⟨rest, s'.world, s'.turns⟩ := by
  rw [drain]
  split
  · rename_i hcut'
    rw [hcut] at hcut'
    cases hcut'
  · rename_i line' rest' hcut'
    rw [hcut, Option.some.injEq, Prod.mk.injEq] at hcut'
    obtain ⟨rfl, rfl⟩ := hcut'
    rfl

/-- What a turn preserves is preserved by the loop that handles lines. -/
theorem drain_invariant {I E : Loop → Prop} (h : TurnKeeps I E) (env : ℕ → Env) (s : Loop)
    (hs : I s) : Ends I E (drain env s) := by
  induction env, s using drain.induct with
  | case1 env s hcut =>
      rw [drain_of_cut_eq_none hcut]
      exact hs
  | case2 env s line rest hcut ih =>
      rw [drain_of_cut_eq_some hcut]
      refine Ends.andThen (h.2 _ _ _ (h.1 s rest hs)) fun s' hs' => ?_
      exact ih s' (h.1 s' rest hs')

/-- What a turn preserves is preserved by a round of the loop. -/
theorem serveWake_invariant {I E : Loop → Prop} (h : TurnKeeps I E) (wake : Wake) (s : Loop)
    (hs : I s) : Ends I E (serveWake wake s) := by
  cases wake with
  | timeout env => exact h.2 env .sweep s hs
  | events ready =>
      refine Ends.forEach_of_invariant (fun r s hs => ?_) hs
      match r with
      | .signal => exact hs
      | .fifo none env => exact hs
      | .fifo (some chunk) env => exact drain_invariant h env _ (h.1 s (s.buf ++ chunk) hs)
      | .netlink running env =>
          rw [serveReady]
          split
          · exact h.2 env .sweep s hs
          · exact hs

/-- **What every turn preserves is preserved by the loop.** -/
theorem serve_invariant {I E : Loop → Prop} (h : TurnKeeps I E) (wakes : List Wake) (s : Loop)
    (hs : I s) : Ends I E (serve wakes s) :=
  Ends.forEach_of_invariant (serveWake_invariant h) hs

/-- A turn that did not raise. -/
def Turn (w : World) (e : Env × Event) (w' : World) : Prop := step e.1 e.2 w = (.ok (), w')

/-- **The loop makes turns and nothing else**: as long as nothing is raised, the world is
what the recorded turns make of it. -/
theorem serve_turns (wakes : List Wake) (w : World) :
    Ends (fun s => Run Turn w s.turns s.world) (fun _ => True) (serve wakes (Loop.start w)) := by
  refine serve_invariant ⟨fun s buf hs => hs, fun env ev s hs => ?_⟩ wakes _ (Run.nil w)
  rw [turn]
  cases hstep : step env ev s.world with
  | mk r w' =>
      cases r with
      | ok u => exact hs.snoc hstep
      | error e => trivial

end Turns

/-! ### The lines of the stream -/

section Frames

variable {env : Env} {s : Loop} {stream : List UInt8}

/-- The lines handled and the buffer make up the stream. -/
def Buffered (stream : List UInt8) (s : Loop) : Prop :=
  ∃ lines, Consumed 0x0a stream lines s.buf ∧ s.calls = lines.map decode

/-- Besides, no line is left in the buffer. -/
def Drained (stream : List UInt8) (s : Loop) : Prop :=
  ∃ lines, Framed 0x0a stream lines s.buf ∧ s.calls = lines.map decode

/-- The lines handled are the first lines of the stream. -/
def Began (stream : List UInt8) (s : Loop) : Prop :=
  ∃ lines rest, Consumed 0x0a stream lines rest ∧ s.calls = lines.map decode

/-- The first lines of a stream are those of a longer one. -/
theorem Began.append (h : Began stream s) (more : List UInt8) : Began (stream ++ more) s := by
  obtain ⟨lines, rest, hconsumed, hcalls⟩ := h
  exact ⟨lines, rest ++ more, hconsumed.read more, hcalls⟩

/-- A chunk goes to the buffer. -/
theorem Drained.read (h : Drained stream s) (chunk : List UInt8) :
    Buffered (stream ++ chunk) { s with buf := s.buf ++ chunk } := by
  obtain ⟨lines, hframed, hcalls⟩ := h
  exact ⟨lines, hframed.1.read chunk, hcalls⟩

variable [UnicodeTables]

/-- A line that is handled is called, even if that raises. -/
theorem turn_line_calls (env : Env) (line : Text) (s : Loop) :
    Ends (fun s' => s'.calls = s.calls ++ [line]) (fun s' => s'.calls = s.calls ++ [line])
      (turn env (.line line) s) := by
  refine ends_iff_of_same.mpr ?_
  rw [Loop.calls, turn, List.filterMap_append]
  rfl

/-- A sweep calls nothing. -/
theorem calls_turn_sweep (env : Env) (s : Loop) : (turn env .sweep s).2.calls = s.calls := by
  rw [Loop.calls, turn, List.filterMap_append]
  exact List.append_nil _

/-- **The buffer is drained line by line.** -/
theorem drain_frames (env : ℕ → Env) (s : Loop) (hs : Buffered stream s) :
    Ends (Drained stream) (Began stream) (drain env s) := by
  induction env, s using drain.induct with
  | case1 env s hcut =>
      obtain ⟨lines, hconsumed, hcalls⟩ := hs
      rw [drain_of_cut_eq_none hcut]
      exact ⟨lines, ⟨hconsumed, not_mem_of_cut hcut⟩, hcalls⟩
  | case2 env s line rest hcut ih =>
      obtain ⟨lines, hconsumed, hcalls⟩ := hs
      have hconsumed' := hconsumed.append (consumed_of_cut hcut)
      have hmap : s.calls ++ [decode line] = (lines ++ [line]).map decode := by
        rw [hcalls, List.map_append]
        rfl
      have hturn := turn_line_calls (env 0) (decode line) { s with buf := rest }
      rw [drain_of_cut_eq_some hcut]
      refine Ends.andThen (hturn.mono (fun _ h => h) fun s' h => ?_) fun s' h => ?_
      · exact ⟨_, rest, hconsumed', h.trans hmap⟩
      · exact ih s' ⟨_, hconsumed', h.trans hmap⟩

/-- A sweep handles no line. -/
theorem sweep_frames (hs : Drained stream s) :
    Ends (Drained stream) (Began stream) (turn env .sweep s) := by
  obtain ⟨lines, hframed, hcalls⟩ := hs
  have hturn : Drained stream (turn env .sweep s).2 :=
    ⟨lines, hframed, (calls_turn_sweep env s).trans hcalls⟩
  exact (ends_iff_of_same.mpr hturn).mono (fun _ h => h)
    fun _ ⟨lines, hframed, hcalls⟩ => ⟨lines, _, hframed.1, hcalls⟩

/-- One entry of `events`. -/
theorem serveReady_frames (r : Ready) (hs : Drained stream s) :
    Ends (Drained (stream ++ r.read)) (Began (stream ++ r.read)) (serveReady r s) := by
  match r with
  | .signal =>
      rw [Ready.read, List.append_nil]
      exact hs
  | .fifo none env =>
      rw [Ready.read, Option.getD_none, List.append_nil]
      exact hs
  | .fifo (some chunk) env => exact drain_frames env _ (hs.read chunk)
  | .netlink running env =>
      rw [Ready.read, List.append_nil, serveReady]
      split
      · exact sweep_frames hs
      · exact hs

/-- One round of the loop. -/
theorem serveWake_frames (wake : Wake) (hs : Drained stream s) :
    Ends (Drained (stream ++ wake.read)) (Began (stream ++ wake.read)) (serveWake wake s) := by
  cases wake with
  | timeout env =>
      rw [Wake.read, List.append_nil]
      exact sweep_frames hs
  | events ready =>
      refine Ends.forEach (I := fun done => Drained (stream ++ done.flatMap Ready.read))
        (fun done r rest s hready hs => ?_) (by rwa [List.flatMap_nil, List.append_nil])
      refine (serveReady_frames r hs).mono (fun s' h => ?_) fun s' h => ?_
      · rw [List.flatMap_append, List.flatMap_singleton, ← List.append_assoc]
        exact h
      · rw [Wake.read, hready, List.flatMap_append, List.flatMap_cons, ← List.append_assoc,
          ← List.append_assoc]
        exact h.append _

/-- The whole loop. -/
theorem serve_drained (wakes : List Wake) (w : World) :
    Ends (Drained (received wakes)) (Began (received wakes)) (serve wakes (Loop.start w)) := by
  refine Ends.forEach (I := fun done => Drained (received done))
    (fun done wake rest s hwakes hs => ?_) ⟨[], ⟨consumed_nil _ _, List.not_mem_nil⟩, rfl⟩
  refine (serveWake_frames wake hs).mono (fun s' h => ?_) fun s' h => ?_
  · rw [received, List.flatMap_append, List.flatMap_singleton]
    exact h
  · rw [received, hwakes, List.flatMap_append, List.flatMap_cons, ← List.append_assoc]
    exact h.append _

/-- **The calls of `handle_line` depend on the stream only**: however it is cut into reads,
and whatever wakes come between, they are its terminated lines, decoded, and the
unterminated rest is kept. If a turn raises, the calls before are the first ones of
these. -/
theorem serve_frames (stream : List UInt8) :
    ∃ lines rest, Framed 0x0a stream lines rest ∧
      ∀ (wakes : List Wake) (w : World), received wakes = stream →
        (serve wakes (Loop.start w)).2.calls <+: lines.map decode ∧
        ((serve wakes (Loop.start w)).1 = .ok () →
          (serve wakes (Loop.start w)).2.calls = lines.map decode ∧
            (serve wakes (Loop.start w)).2.buf = rest) := by
  obtain ⟨lines, rest, hframed⟩ := exists_framed 0x0a stream
  refine ⟨lines, rest, hframed, fun wakes w hstream => ?_⟩
  subst hstream
  have hends := serve_drained wakes w
  constructor
  · have hbegan := ends_iff_of_same.mp (hends.mono
      (fun s ⟨lines, hframed, hcalls⟩ => (⟨lines, _, hframed.1, hcalls⟩ : Began _ s))
      fun _ h => h)
    obtain ⟨lines', rest', hconsumed, hcalls⟩ := hbegan
    rw [hcalls]
    exact (hframed.prefix_of_consumed hconsumed).map decode
  · intro hok
    obtain ⟨lines', hframed', hcalls⟩ := hends.of_ok hok
    obtain ⟨rfl, rfl⟩ := hframed.unique hframed'
    exact ⟨hcalls, rfl⟩

end Frames

end V4WithV6Nh.Manager
