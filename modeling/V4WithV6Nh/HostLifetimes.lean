import V4WithV6Nh.HostFib
import V4WithV6Nh.Lifetimes

/-!
# The Host Daemon over Several Lifetimes

What `v4gwd.py` installs stays in the kernel when its process ends; what it remembers of it
does not. A process is started, reconciles its interfaces, and ends: on SIGTERM `main`
withdraws what it remembers, and on an exception, which nothing catches, or on a kill at
any other moment it withdraws nothing. The service manager then starts it again.

`granted` is bookkeeping of this model: every route and every neighbour that the kernel
accepted from some lifetime of the daemon. Nothing reads it.

## Main results

* `always_ceased_iff`: the histories in which a pass that finds the sentinel gone leaves
  nothing of the daemon on the interface are those in which such a pass remembers what is
  there.
* `orphan_after_exception`: after an exception it does not.
-/

namespace V4WithV6Nh.HostDaemon

open Interface

/-! ### A process -/

/-- Where `main` is. -/
inductive Phase
  /-- In `serve`, with the table of interfaces. -/
  | serving (ifaces : OrderedDict Text Interface)
  /-- After a signal, with the interfaces that are still to be withdrawn. -/
  | stopping (rest : List Interface)
  /-- An exception has ended `main`. -/
  | raised

/-- A process of the daemon. -/
structure Process where
  cfg : Config
  phase : Phase

/-- What a process does next, with what the kernel answers. -/
inductive Work
  | refresh (names : List Text)
  | reconcile (name : Text) (env : Env)
  | signal
  | withdrawNext (env : Env)

/-- The IPv4 tables, and what the kernel ever accepted from the daemon. -/
structure Kernel where
  tables : Tables
  granted : Tables

/-- Enter one effect of a pass of the interface in the books. -/
def Interface.grant (i : Interface) (granted : Tables) : Effect → Tables
  | .replacedRoute _ gw none => { granted with fib := i.defaultRoute gw :: granted.fib }
  | .replacedNeigh _ mac none =>
      { granted with neigh4 := i.pinnedNeighbor mac :: granted.neigh4 }
  | _ => granted

/-- The kernel after a pass that left the interface `i` and the world `w`. -/
def Kernel.after (k : Kernel) (i : Interface) (w : World) : Kernel where
  tables := w.tables
  granted := w.trace.foldl i.grant k.granted

/-- One piece of work. -/
def Process.perform (work : Work) (p : Process) (k : Kernel) : Process × Kernel :=
  match p.phase, work with
  | .serving ifaces, .refresh names =>
      let d := Daemon.refresh p.cfg names ⟨ifaces, ⟨k.tables, []⟩⟩
      ({ p with phase := .serving d.ifaces }, k)
  | .serving ifaces, .reconcile name env =>
      match ifaces.get name with
      | none => (p, k)
      | some i =>
          match i.reconcile env ⟨k.tables, []⟩ with
          | (.ok (), i', w) =>
              ({ p with phase := .serving (ifaces.set name i') }, k.after i' w)
          | (.error _, i', w) => ({ p with phase := .raised }, k.after i' w)
  | .serving ifaces, .signal =>
      ({ p with phase := .stopping (ifaces.entries.map Prod.snd) }, k)
  | .stopping (i :: rest), .withdrawNext env =>
      let (i', w) := i.cease env ⟨k.tables, []⟩
      ({ p with phase := .stopping rest }, k.after i' w)
  | _, _ => (p, k)

/-- The daemon over its lifetimes. A process that is killed, that a signal has stopped or
that has raised is gone; others change the tables in any way at any time. -/
def program : Program Config Work Process Kernel where
  fresh cfg := ⟨cfg, .serving OrderedDict.empty⟩
  pass := Process.perform
  stop _ _ k := k
  Others k k' := k'.granted = k.granted

/-! ### Ceasing -/

section Ceasing

variable {env : Env} {i : Interface} {granted t : Tables} {w : World}

/-- The permanent neighbour for the sentinel on the interface. -/
def Interface.isPinned (i : Interface) (n : Neigh4) : Bool :=
  decide (some n.ifindex = i.index ∧ n.dst = i.sentinel ∧ n.state &&& NUD_PERMANENT ≠ 0)

/-- Something that a lifetime of the daemon installed is on the interface: in native mode
its default route, in static mode its neighbour. -/
def Remains (i : Interface) (granted t : Tables) : Prop :=
  if i.staticArp then ∃ n ∈ t.neigh4, i.isPinned n = true ∧ n ∈ granted.neigh4
  else ∃ r ∈ t.fib, i.owns r = true ∧ r ∈ granted.fib

/-- The interface remembers an installation of its mode. -/
def Remembers (i : Interface) : Prop :=
  if i.staticArp then i.installedMac ≠ none else i.active = true

/-- Nothing that the daemon installed is hidden behind the entry that its deletion
takes. -/
def Single (i : Interface) (granted t : Tables) : Prop :=
  if i.staticArp then
    ∀ n ∈ (t.neigh4.filter (Neigh4.isFor (i.index.getD 0) i.sentinel)).tail,
      i.isPinned n = true → n ∉ granted.neigh4
  else ∀ r ∈ (t.fib.filter i.owns).tail, r ∉ granted.fib

/-- A pass in which every call succeeds finds the interface, and on it no sentinel. -/
def FindsAbsent (env : Env) (i : Interface) (t : Tables) : Prop :=
  NoFaults env ∧ i.requireSentinel = true ∧ (i.resolveIndex env).index.isSome ∧
    (i.resolveIndex env).sentinelPresent env t = .ok false

/-- The pass remembers what is there, or there is nothing. -/
def Covered (i : Interface) (granted t : Tables) : Prop :=
  (Remembers i ∧ Single i granted t) ∨ ¬ Remains i granted t

/-- What a pass that finds no sentinel does. -/
theorem reconcile_of_findsAbsent (h : FindsAbsent env i w.tables) :
    i.reconcile env w = (.ok (), (i.resolveIndex env).cease env w) := by
  obtain ⟨hfaults, hrequire, hindex, habsent⟩ := h
  obtain ⟨idx, hidx⟩ := Option.isSome_iff_exists.mp hindex
  have hgate : (i.resolveIndex env).gate env w.tables = .ok false := by
    rw [gate, show (i.resolveIndex env).requireSentinel = true from hrequire]
    exact habsent
  simp only [reconcile, hfaults .linkLookup, hidx, reconcilePresent, hgate]

/-- Ceasing is granted nothing. -/
theorem foldl_grant_cease (j : Interface) (env : Env) (i : Interface) (t : Tables) :
    (i.cease env ⟨t, []⟩).2.trace.foldl j.grant granted = granted := by
  rw [cease]
  split
  · rw [withdraw]
    split
    · split
      · rfl
      · split <;> rfl
    · split <;> rfl
  · rfl

/-- In native mode a withdrawal takes the first own route. -/
theorem withdraw_native (hf : NoFaults env) (hnative : i.staticArp = false)
    (hindex : i.index.isSome) :
    (i.withdraw env w).2.tables.fib = w.tables.fib.eraseP i.owns := by
  have howns : i.owns = i.ownRoutes.accepts := by
    funext r
    rw [owns, hindex, Bool.true_and]
  rw [withdraw, if_neg (by simp [hnative]), hf, howns]
  by_cases hany : w.tables.fib.any i.ownRoutes.accepts
  · simp only [routeDel, if_pos hany]
  · simp only [routeDel, if_neg hany]
    refine (List.eraseP_of_forall_not fun r hr hacc => hany ?_).symm
    exact List.any_eq_true.mpr ⟨r, hr, hacc⟩

/-- In static mode a withdrawal takes the first neighbour for the sentinel, if the
interface remembers one. -/
theorem withdraw_static (hf : NoFaults env) (hstatic : i.staticArp = true)
    (hmac : i.installedMac ≠ none) :
    (i.withdraw env w).2.tables.neigh4 =
      w.tables.neigh4.eraseP (Neigh4.isFor (i.index.getD 0) i.sentinel) := by
  rw [withdraw, if_pos hstatic, if_neg hmac, hf]
  by_cases hany : w.tables.neigh4.any (Neigh4.isFor (i.index.getD 0) i.sentinel)
  · simp only [neighDel, if_pos hany]
  · simp only [neighDel, if_neg hany]
    refine (List.eraseP_of_forall_not fun n hn hfor => hany ?_).symm
    exact List.any_eq_true.mpr ⟨n, hn, hfor⟩

/-- An interface that remembers nothing of its mode leaves the tables alone. -/
theorem cease_of_not_remembers (h : ¬ Remembers i) : (i.cease env w).2.tables = w.tables := by
  rw [cease]
  split
  · rename_i hactive
    rw [Remembers] at h
    split at h
    · rename_i hstatic
      rw [withdraw, if_pos hstatic, if_pos (not_not.mp h)]
    · exact absurd hactive h
  · rfl

/-- An interface that remembers an installation of its mode withdraws it. -/
theorem cease_of_remembers (h : Remembers i) : i.cease env w = i.withdraw env w := by
  rw [cease, if_pos]
  rw [Remembers] at h
  split at h
  · simp [active, Option.isSome_iff_ne_none.mpr h]
  · exact h

/-- A pinned neighbour is one for the sentinel. -/
theorem isFor_of_isPinned {n : Neigh4} (h : i.isPinned n = true) :
    Neigh4.isFor (i.index.getD 0) i.sentinel n = true := by
  obtain ⟨hindex, hdst, -⟩ := of_decide_eq_true h
  rw [Neigh4.isFor, ← hindex]
  exact decide_eq_true ⟨rfl, hdst⟩

/-- Where nothing of the daemon is, nothing is hidden. -/
theorem single_of_not_remains (h : ¬ Remains i granted t) : Single i granted t := by
  rw [Remains] at h
  rw [Single]
  split
  · rename_i hstatic
    rw [if_pos hstatic] at h
    intro n hn hpinned hgranted
    have hmem := (List.mem_filter.mp (List.mem_of_mem_tail hn)).1
    exact h ⟨n, hmem, hpinned, hgranted⟩
  · rename_i hnative
    rw [if_neg hnative] at h
    intro r hr hgranted
    obtain ⟨hmem, howns⟩ := List.mem_filter.mp (List.mem_of_mem_tail hr)
    exact h ⟨r, hmem, howns, hgranted⟩

/-- A withdrawal takes one entry, and leaves what is hidden behind it. -/
theorem not_remains_withdraw_iff (hf : NoFaults env) (hindex : i.index.isSome)
    (hremembers : Remembers i) :
    ¬ Remains i granted (i.withdraw env w).2.tables ↔ Single i granted w.tables := by
  rw [Remains, Single]
  rw [Remembers] at hremembers
  split
  · rename_i hstatic
    rw [if_pos hstatic] at hremembers
    rw [withdraw_static hf hstatic hremembers]
    constructor
    · intro h n hn hpinned hgranted
      have hmem := (mem_eraseP_iff_of_pos (isFor_of_isPinned hpinned)).mpr hn
      exact h ⟨n, hmem, hpinned, hgranted⟩
    · rintro h ⟨n, hn, hpinned, hgranted⟩
      exact h n ((mem_eraseP_iff_of_pos (isFor_of_isPinned hpinned)).mp hn) hpinned hgranted
  · rename_i hnative
    rw [withdraw_native hf (Bool.not_eq_true _ ▸ hnative) hindex]
    constructor
    · intro h r hr hgranted
      have howns := (List.mem_filter.mp (List.mem_of_mem_tail hr)).2
      exact h ⟨r, (mem_eraseP_iff_of_pos howns).mpr hr, howns, hgranted⟩
    · rintro h ⟨r, hr, howns, hgranted⟩
      exact h r ((mem_eraseP_iff_of_pos howns).mp hr) hgranted

/-- **Exactly when ceasing leaves nothing of the daemon.** -/
theorem not_remains_cease_iff (hf : NoFaults env) (hindex : i.index.isSome) :
    ¬ Remains i granted (i.cease env w).2.tables ↔ Covered i granted w.tables := by
  by_cases hremembers : Remembers i
  · rw [cease_of_remembers hremembers, not_remains_withdraw_iff hf hindex hremembers, Covered]
    exact ⟨fun h => Or.inl ⟨hremembers, h⟩,
      fun h => h.elim (fun h => h.2) single_of_not_remains⟩
  · rw [cease_of_not_remembers hremembers, Covered]
    exact ⟨Or.inr, fun h => h.resolve_left fun h => hremembers h.1⟩

end Ceasing

/-! ### Histories -/

/-- The work is a pass of the interface `i`, in which it finds no sentinel. -/
def AbsentPass (env : Env) (i : Interface) (work : Work) (p : Process) (k : Kernel) : Prop :=
  ∃ name ifaces, work = .reconcile name env ∧ p.phase = .serving ifaces ∧
    ifaces.get name = some i ∧ FindsAbsent env i k.tables

/-- A pass that finds no sentinel leaves nothing of the daemon on its interface. -/
def Ceased (work : Work) (p : Process) (k : Kernel) : Prop :=
  ∀ env i, AbsentPass env i work p k →
    ¬ Remains (i.resolveIndex env) (p.perform work k).2.granted (p.perform work k).2.tables

/-- A pass that finds no sentinel remembers what is there, or there is nothing. -/
def CoveredPass (work : Work) (p : Process) (k : Kernel) : Prop :=
  ∀ env i, AbsentPass env i work p k → Covered (i.resolveIndex env) k.granted k.tables

/-- **One pass** ceases exactly when it remembers what is there. -/
theorem ceased_iff (work : Work) (p : Process) (k : Kernel) :
    Ceased work p k ↔ CoveredPass work p k := by
  refine forall_congr' fun env => forall_congr' fun i => forall_congr' fun hpass => ?_
  obtain ⟨name, ifaces, rfl, hphase, hget, habsent⟩ := hpass
  have hreconcile := reconcile_of_findsAbsent (w := ⟨k.tables, []⟩) habsent
  have hperform : (p.perform (.reconcile name env) k).2 =
      k.after ((i.resolveIndex env).cease env ⟨k.tables, []⟩).1
        ((i.resolveIndex env).cease env ⟨k.tables, []⟩).2 := by
    simp only [Process.perform, hphase, hget, hreconcile]
  rw [hperform, Kernel.after, foldl_grant_cease]
  exact not_remains_cease_iff habsent.1 habsent.2.2.1

/-- **Ceasing over any number of lifetimes**: the histories in which every pass that finds
the sentinel gone leaves nothing of the daemon on its interface are the histories in which
every such pass remembers what is there, or there is nothing. -/
theorem always_ceased_iff {s s' : Option Process × Kernel} {es : List (LifeEvent Config Work)} :
    Run (fun s e s' => program.Turn s e s' ∧ Program.AtPass Ceased s e) s es s' ↔
      Run (fun s e s' => program.Turn s e s' ∧ Program.AtPass CoveredPass s e) s es s' :=
  Program.always_pass_iff ceased_iff

/-! ### A pass that raises -/

/-- The first of `twoLinks` and its kernel, before the daemon ever ran. -/
def untouched : Kernel := ⟨leased.tables, ⟨[], []⟩⟩

/-- A dump of the IPv4 routes fails. -/
def dumpFails : Env := { twoLinks with
  fault := fun c => if c = .getRoutes4 then some ⟨105⟩ else none }

/-- A process after some work. -/
def works (s : Process × Kernel) (work : List Work) : Process × Kernel :=
  work.foldl (fun s w => s.1.perform w s.2) s

/-- A process that finds `eth0`, installs its route, and then raises. -/
def crashed : Process × Kernel :=
  works (program.fresh defaults, untouched) [.refresh ["eth0".toList],
    .reconcile "eth0".toList twoLinks, .reconcile "eth0".toList dumpFails]

/-- The kernel after the sentinel routes are gone. -/
def expired : Kernel :=
  { crashed.2 with tables := { crashed.2.tables with
      fib := crashed.2.tables.fib.filter fun r => r.proto = RT_PROTO } }

/-- The next process, after it finds `eth0`. -/
def restarted : Process × Kernel :=
  works (program.fresh defaults, expired) [.refresh ["eth0".toList]]

/-- **A crash leaves the route for good**: after an uncaught error the next process finds
the sentinel gone, every call of its pass succeeds, and the route that the first process
installed stays. -/
theorem orphan_after_exception :
    ∃ (es : List (LifeEvent Config Work)) (p : Process) (k : Kernel) (work : Work),
      Run program.Turn (none, untouched) es (some p, k) ∧ ¬ Ceased work p k := by
  refine ⟨[.start defaults, .pass (.refresh ["eth0".toList]),
    .pass (.reconcile "eth0".toList twoLinks), .pass (.reconcile "eth0".toList dumpFails),
    .kill, .others, .start defaults, .pass (.refresh ["eth0".toList])],
    restarted.1, restarted.2, .reconcile "eth0".toList twoLinks, ?_, fun hceased => ?_⟩
  · exact .cons rfl (.cons rfl (.cons rfl (.cons rfl (.cons rfl
      (@Run.cons _ _ _ _ (none, expired) _ _ _ ⟨rfl, rfl⟩ (.cons rfl (Run.single rfl)))))))
  · have habsent : FindsAbsent twoLinks eth0 restarted.2.tables :=
      ⟨fun _ => rfl, rfl, rfl, by decide⟩
    have hpass : AbsentPass twoLinks eth0 (.reconcile "eth0".toList twoLinks) restarted.1
        restarted.2 := ⟨_, _, rfl, rfl, by decide, habsent⟩
    refine hceased twoLinks eth0 hpass ?_
    exact ⟨{ eth0 with index := some 3 }.defaultRoute router₀, by decide, by decide, by decide⟩

end V4WithV6Nh.HostDaemon
