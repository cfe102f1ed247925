import V4WithV6Nh.Permit
import V4WithV6Nh.StateFile

/-!
# The Solicitation of the Derived GUA

`v4gwrd.py` solicits the GUA that it derives for a host once per lease, after a settle
delay. A lease line arms the check of its host, and so does `restore` for each host it
reads back. Afterwards `evaluate`, which runs at every netlink event of any host, finds the
host on its GUA and disarms the check, or finds it due and solicits.

`probeLog` is the log of one MAC: what is armed, found and solicited, in order, over a
start and any turns after it. An armed check is a permit, which `found` revokes and
`kicked` uses (`probeRules`). The invariant is `Tracks`: an entry whose check is armed for
a time has that permit.

## Main results

* `tracks_step`, `tracks_restore`: the invariant along every run.
* `kicks_after`: the log has the datagrams that are sent, and no other.
* `solicits_once`: they are no more than the lease lines and the restored entry, each
  after the delay, with a lease line between any two of them and between finding the
  host on its GUA and the next.
-/

namespace V4WithV6Nh.Manager

/-! ### The log of a MAC -/

/-- What happens to the GUA check of a MAC. -/
inductive Probe
  /-- `restore` made an entry, at the given time. -/
  | restored (time : ℕ)
  /-- A lease line was handled. -/
  | armed (time : ℕ)
  /-- `evaluate` found the host on its derived GUA. -/
  | found
  /-- `kick_nud` was called. -/
  | kicked (time : ℕ)
deriving DecidableEq

/-- The times of the solicitations in a log entry. -/
def Probe.kickTime : Probe → Option ℕ
  | .kicked time => some time
  | _ => none

/-- An armed check is a permit to solicit after the delay. -/
def probeRules : PermitRules Probe where
  grants
    | .restored time => some (time + GUA_PROBE_DELAY)
    | .armed time => some (time + GUA_PROBE_DELAY)
    | .found => none
    | .kicked _ => none
  spends
    | .restored _ => false
    | .armed _ => false
    | .found => true
    | .kicked _ => true
  uses := Probe.kickTime
  grants_of_spends a h := by
    cases a with
    | restored | armed => cases h
    | found | kicked => rfl
  spends_of_uses a h := by
    cases a with
    | restored | armed | found => exact absurd rfl h
    | kicked => rfl

/-- The times at which the MAC was solicited. -/
def kicks (mac : Text) (trace : List Effect) : List ℕ :=
  trace.filterMap fun e =>
    match e with
    | .kicked m _ _ time => if m = mac then some time else none
    | _ => none

/-- What the solicitation step of `evaluate` does about the GUA of the host. -/
def solicitProbes (env : Env) (mac : Text) (nh gua : Option IPv6) (h : Host) : List Probe :=
  if gua.isSome ∧ nh = gua then [.found]
  else (kicks mac (solicit env mac nh gua h).2).map .kicked

section Log

variable [UnicodeTables]

/-- What `evaluate` does about the GUA of the MAC. -/
def evaluateProbes (env : Env) (mac : Text) (w : World) : List Probe :=
  match w.hosts.get mac with
  | none => []
  | some h =>
      match index env mac h.iface with
      | .error _ => []
      | .ok none => []
      | .ok (some idx) =>
          match bestNexthop env idx mac with
          | .error _ => []
          | .ok (nh, gua) => solicitProbes env mac nh gua h

/-- What a sweep does about it. -/
def sweepProbes (env : Env) (mac : Text) : List Text → World → List Probe
  | [], _ => []
  | m :: macs, w =>
      (if m = mac then evaluateProbes env mac w else []) ++
        match evaluate env m w with
        | (.ok (), w') => sweepProbes env mac macs w'
        | (.error _, _) => []

/-- What a turn does about it. -/
def turnProbes (env : Env) (mac : Text) (ev : Event) (w : World) : List Probe :=
  match ev with
  | .sweep => sweepProbes env mac w.hosts.keys w
  | .line line =>
      match readLine line with
      | some (.lease iface m ip4) =>
          if m = mac then
            .armed (env.monotonic .arming) ::
              evaluateProbes env mac (persist env (record env iface mac ip4 w))
          else []
      | _ => []

/-- The world after some turns. -/
def World.after (w : World) (es : List (Env × Event)) : World :=
  es.foldl (fun w e => (step e.1 e.2 w).2) w

/-- What some turns do about it. -/
def probes (mac : Text) : List (Env × Event) → World → List Probe
  | [], _ => []
  | e :: es, w => turnProbes e.1 mac e.2 w ++ probes mac es (step e.1 e.2 w).2

/-- What the line of the state file does about it. -/
def restoreProbe (s : Startup) (mac : Text) (line : Text × ℕ) : Option Probe :=
  match split line.1 with
  | [m, _, ip4] =>
      if isLive (liveLeases s.leases) (UnicodeTables.lower m) ip4 ∧
          UnicodeTables.lower m = mac then
        some (.restored (s.monotonic line.2))
      else none
  | _ => none

/-- What `restore` does about it. -/
def restoreProbes (s : Startup) (mac : Text) (w : World) : List Probe :=
  match w.state with
  | none => []
  | some text => (splitlines text).zipIdx.filterMap (restoreProbe s mac)

/-- The log of a MAC over a start and the turns after it. -/
def probeLog (s : Startup) (mac : Text) (w : World) (es : List (Env × Event)) : List Probe :=
  restoreProbes s mac w.reopen ++ probes mac es (restore s w.reopen)

/-- The line announces a lease of the MAC: `add` or `old`. -/
def announces (mac : Text) (ev : Event) : Bool :=
  match ev with
  | .sweep => false
  | .line line =>
      match readLine line with
      | some (.lease _ m _) => decide (m = mac)
      | _ => false

/-- **The rule for a sweep** and its part of the log: what every evaluation keeps, of the host
itself and of others, the sweep keeps. -/
theorem sweepProbes_invariant {env : Env} {mac : Text} {P : List Probe → World → Prop}
    (hself : ∀ log w, P log w → P (log ++ evaluateProbes env mac w) (evaluate env mac w).2)
    (hother : ∀ m log w, m ≠ mac → P log w → P log (evaluate env m w).2)
    (macs : List Text) (log : List Probe) (w : World) (hw : P log w) :
    P (log ++ sweepProbes env mac macs w) (evaluateEach env macs w).2 := by
  induction macs generalizing log w with
  | nil =>
      rw [sweepProbes, List.append_nil]
      exact hw
  | cons m macs ih =>
      have heval : P (log ++ if m = mac then evaluateProbes env mac w else [])
          (evaluate env m w).2 := by
        by_cases hm : m = mac
        · subst hm
          rw [if_pos rfl]
          exact hself log w hw
        · rw [if_neg hm, List.append_nil]
          exact hother m log w hm hw
      rw [sweepProbes, evaluateEach, ← List.append_assoc]
      cases he : evaluate env m w with
      | mk r w' =>
          rw [he] at heval
          cases r with
          | ok u => exact ih _ w' heval
          | error e =>
              rw [List.append_nil]
              exact heval

end Log

/-! ### The permit of an entry -/

section Tracks

variable {env : Env} {mac m : Text} {log : List Probe} {w w' : World} {h : Host}

/-- Every solicitation in the log was due, and an entry whose check is armed has the permit
of the log. -/
def Tracks (mac : Text) (log : List Probe) (w : World) : Prop :=
  probeRules.Timely log ∧
    ∀ h d, w.hosts.get mac = some h → h.probeAt = some d → probeRules.after log = some d

/-- Only the entry of the MAC matters. -/
theorem Tracks.of_get_eq (ht : Tracks mac log w)
    (hget : w'.hosts.get mac = w.hosts.get mac) : Tracks mac log w' :=
  ⟨ht.1, fun h d hh => ht.2 h d (hget ▸ hh)⟩

/-- A MAC that is not tracked needs no permit. -/
theorem Tracks.of_get_none (ht : Tracks mac log w) (hget : w'.hosts.get mac = none) :
    Tracks mac log w' := by
  refine ⟨ht.1, fun h d hh => ?_⟩
  rw [hget] at hh
  cases hh

/-- Following a next hop keeps the armed time. -/
theorem follow_probeAt {idx : ℕ} {nh : Option IPv6} (hget : w.hosts.get mac = some h) :
    ∃ h', (follow env mac idx nh h w).hosts.get mac = some h' ∧ h'.probeAt = h.probeAt := by
  cases nh with
  | none => exact ⟨h, hget, rfl⟩
  | some n =>
      rw [follow]
      split
      · exact ⟨h, hget, rfl⟩
      · exact ⟨_, OrderedDict.get_set_self _ _ _, rfl⟩

/-- **Everything the solicitation step can do**: find the host on its GUA and disarm, solicit
when the check is due, or leave it. -/
theorem solicit_cases (env : Env) (mac : Text) (nh gua : Option IPv6) (h : Host) :
    (solicitProbes env mac nh gua h = [.found] ∧ (solicit env mac nh gua h).2 = [] ∧
      (solicit env mac nh gua h).1.probeAt = none) ∨
    (∃ d t g, h.probeAt = some d ∧ d ≤ t ∧ solicitProbes env mac nh gua h = [.kicked t] ∧
      (solicit env mac nh gua h).2 = [.kicked mac h.iface g t] ∧
      (solicit env mac nh gua h).1.probeAt = none) ∨
    (solicitProbes env mac nh gua h = [] ∧ (solicit env mac nh gua h).2 = [] ∧
      (solicit env mac nh gua h).1.probeAt = h.probeAt) := by
  cases gua with
  | none => exact Or.inr (Or.inr ⟨rfl, rfl, rfl⟩)
  | some g =>
      by_cases hfound : nh = some g
      · subst hfound
        refine Or.inl ⟨if_pos ⟨rfl, rfl⟩, ?_, ?_⟩
        · simp only [solicit, if_true]
        · simp only [solicit, if_true]
      · have hprobes : ¬ ((some g).isSome = true ∧ nh = some g) := fun h => hfound h.2
        rw [solicitProbes, if_neg hprobes]
        simp only [solicit, if_neg hfound]
        cases hdue : h.probeAt with
        | none => exact Or.inr (Or.inr ⟨rfl, rfl, hdue⟩)
        | some d =>
            simp only
            by_cases hle : d ≤ env.monotonic (.evaluating mac)
            · refine Or.inr (Or.inl ⟨d, env.monotonic (.evaluating mac), g, rfl, hle, ?_⟩)
              simp only [if_pos hle]
              exact ⟨by simp [kicks], trivial, trivial⟩
            · refine Or.inr (Or.inr ?_)
              simp only [if_neg hle]
              exact ⟨rfl, trivial, hdue⟩

/-- **The solicitation step** uses a permit that is due, or revokes it. -/
theorem tracks_solicit {nh gua : Option IPv6} (ht : Tracks mac log w)
    (hh : w.hosts.get mac = some h)
    (hget : ∃ h', w'.hosts.get mac = some h' ∧
      h'.probeAt = (solicit env mac nh gua h).1.probeAt) :
    Tracks mac (log ++ solicitProbes env mac nh gua h) w' := by
  obtain ⟨h', hget, hprobe⟩ := hget
  have hdisarmed : (solicit env mac nh gua h).1.probeAt = none → ∀ log' : List Probe,
      ∀ h d, w'.hosts.get mac = some h → h.probeAt = some d →
        probeRules.after log' = some d := by
    intro hnone log' h'' d hh'' hd
    obtain rfl := Option.some.inj (hget.symm.trans hh'')
    rw [hprobe, hnone] at hd
    cases hd
  obtain ⟨hp, -, hnone⟩ | ⟨d, t, g, hd, hle, hp, -, hnone⟩ | ⟨hp, -, hsame⟩ :=
    solicit_cases env mac nh gua h
  · rw [hp]
    exact ⟨ht.1.append_singleton fun t htime => (by cases htime), hdisarmed hnone _⟩
  · rw [hp]
    refine ⟨ht.1.append_singleton fun t' htime => ?_, hdisarmed hnone _⟩
    obtain rfl := Option.some.inj htime
    exact ⟨d, ht.2 h d hh hd, hle⟩
  · rw [hp, List.append_nil]
    refine ⟨ht.1, fun h'' d hh'' hd => ht.2 h d hh ?_⟩
    obtain rfl := Option.some.inj (hget.symm.trans hh'')
    rw [← hd, hprobe, hsame]

/-- Arming the check gives its entry the permit. -/
theorem tracks_record (ht : Tracks mac log w) (env : Env) (iface ip4 : Text) :
    Tracks mac (log ++ [.armed (env.monotonic .arming)])
      (persist env (record env iface mac ip4 w)) := by
  refine ⟨ht.1.append_singleton fun t htime => (by cases htime), fun h d hh hd => ?_⟩
  rw [persist_hosts] at hh
  have hdue : h.probeAt = some (env.monotonic .arming + GUA_PROBE_DELAY) := by
    obtain ⟨h₀, -, -, -, he⟩ | ⟨w₁, -, he⟩ := record_cases env iface mac ip4 w
    · rw [he] at hh
      obtain rfl := OrderedDict.eq_of_get_set_self hh
      rfl
    · rw [he] at hh
      obtain rfl := OrderedDict.eq_of_get_set_self hh
      rfl
  rw [PermitRules.after_append_singleton, ← hd, hdue]
  rfl

variable [UnicodeTables]

/-- **What `evaluate` does for its own MAC.** -/
theorem tracks_evaluate (ht : Tracks mac log w) (env : Env) :
    Tracks mac (log ++ evaluateProbes env mac w) (evaluate env mac w).2 := by
  rw [evaluateProbes, evaluate]
  cases hh : w.hosts.get mac with
  | none =>
      rw [List.append_nil]
      exact ht
  | some h =>
      simp only
      cases index env mac h.iface with
      | error e =>
          rw [List.append_nil]
          exact ht
      | ok i =>
          cases i with
          | none =>
              rw [List.append_nil]
              exact ht
          | some idx =>
              simp only
              cases bestNexthop env idx mac with
              | error e =>
                  rw [List.append_nil]
                  exact ht
              | ok r =>
                  refine tracks_solicit ht hh ?_
                  exact follow_probeAt (OrderedDict.get_set_self _ _ _)

/-- What a sweep does. -/
theorem tracks_sweep (env : Env) (macs : List Text) (ht : Tracks mac log w) :
    Tracks mac (log ++ sweepProbes env mac macs w) (evaluateEach env macs w).2 :=
  sweepProbes_invariant (P := Tracks mac) (fun _ _ ht => tracks_evaluate ht env)
    (fun _ _ _ hm ht => ht.of_get_eq (evaluate_get_of_ne fun h => hm h.symm)) macs log w ht

/-- **One turn keeps the log.** -/
theorem tracks_step (ht : Tracks mac log w) (env : Env) (ev : Event) :
    Tracks mac (log ++ turnProbes env mac ev w) (step env ev w).2 := by
  cases ev with
  | sweep => exact tracks_sweep env _ ht
  | line line =>
      rw [turnProbes, step, handleLine_eq]
      cases readLine line with
      | none =>
          rw [List.append_nil]
          exact ht
      | some l =>
          cases l with
          | release m ip4 =>
              rw [List.append_nil]
              by_cases hm : m = mac
              · subst hm
                have hgone : (onRelease env m ip4 w).hosts.get m = none := onRelease_get_self
                exact ht.of_get_none hgone
              · have hother : (onRelease env m ip4 w).hosts.get mac = w.hosts.get mac :=
                  onRelease_get_of_ne fun h => hm h.symm
                exact ht.of_get_eq hother
          | lease iface m ip4 =>
              by_cases hm : m = mac
              · subst hm
                simp only [if_true]
                rw [List.append_cons]
                exact tracks_evaluate (tracks_record ht env iface ip4) env
              · have hne : mac ≠ m := fun h => hm h.symm
                simp only [if_neg hm, List.append_nil, onLease]
                refine ht.of_get_eq ((evaluate_get_of_ne hne).trans ?_)
                rw [persist_hosts]
                exact record_get_of_ne hne

/-- **A run keeps the log.** -/
theorem tracks_after (es : List (Env × Event)) (ht : Tracks mac log w) :
    Tracks mac (log ++ probes mac es w) (w.after es) := by
  induction es generalizing log w with
  | nil =>
      rw [probes, List.append_nil]
      exact ht
  | cons e es ih =>
      rw [probes, ← List.append_assoc]
      exact ih (tracks_step ht e.1 e.2)

end Tracks

/-! ### The start -/

section Start

variable [UnicodeTables] {s : Startup} {mac : Text}

/-- A line of the state file makes the entry and the permit, or neither. -/
theorem after_restoreLine {log : List Probe} {w : World}
    (h : probeRules.after log = (w.hosts.get mac).bind Host.probeAt) (line : Text × ℕ) :
    probeRules.after (log ++ (restoreProbe s mac line).toList) =
      ((restoreLine s w line).hosts.get mac).bind Host.probeAt := by
  have hother : probeRules.after (log ++ (none : Option Probe).toList) =
      (w.hosts.get mac).bind Host.probeAt := by
    rw [Option.toList_none, List.append_nil, h]
  rw [restoreProbe, restoreLine]
  rcases split line.1 with _ | ⟨m, _ | ⟨iface, _ | ⟨ip4, _ | ⟨x, rest⟩⟩⟩⟩
  · exact hother
  · exact hother
  · exact hother
  · simp only
    by_cases hlive : isLive (liveLeases s.leases) (UnicodeTables.lower m) ip4 = true
    · by_cases hm : UnicodeTables.lower m = mac
      · subst hm
        rw [if_pos ⟨hlive, rfl⟩, if_pos hlive, OrderedDict.get_set_self, Option.toList_some,
          PermitRules.after_append_singleton]
        rfl
      · rw [if_neg fun h => hm h.2, if_pos hlive, OrderedDict.get_set_of_ne _ _ fun h => hm h.symm]
        exact hother
    · rw [if_neg fun h => hlive h.1, if_neg hlive]
      exact hother
  · exact hother

/-- After the start the permit of the log is that of the entry. -/
theorem after_restoreProbes (s : Startup) (mac : Text) (w : World) :
    probeRules.after (restoreProbes s mac w.reopen) =
      ((restore s w.reopen).hosts.get mac).bind Host.probeAt := by
  have hlines : ∀ (lines : List (Text × ℕ)) (log : List Probe) (w : World),
      probeRules.after log = (w.hosts.get mac).bind Host.probeAt →
      probeRules.after (log ++ lines.filterMap (restoreProbe s mac)) =
        ((lines.foldl (restoreLine s) w).hosts.get mac).bind Host.probeAt := by
    intro lines
    induction lines with
    | nil =>
        intro log w h
        rw [List.filterMap_nil, List.append_nil, h]
        rfl
    | cons line lines ih =>
        intro log w h
        have hline := after_restoreLine (s := s) h line
        rw [List.foldl_cons, ← ih _ _ hline, List.filterMap_cons]
        cases restoreProbe s mac line with
        | none => rw [Option.toList_none, List.append_nil]
        | some x => rw [Option.toList_some, List.append_assoc, List.singleton_append]
  rw [restoreProbes, restore]
  cases w.reopen.state with
  | none => rfl
  | some text => exact hlines _ [] w.reopen rfl

/-- `restore` solicits nothing. -/
theorem kickTime_of_mem_restoreProbes {w : World} {x : Probe}
    (hx : x ∈ restoreProbes s mac w) : ∃ t, x = .restored t := by
  rw [restoreProbes] at hx
  split at hx
  · cases hx
  · obtain ⟨line, -, hline⟩ := List.mem_filterMap.mp hx
    rw [restoreProbe] at hline
    split at hline
    · split at hline
      · exact ⟨_, (Option.some.inj hline).symm⟩
      · cases hline
    · cases hline

/-- **The start gives every entry its permit.** -/
theorem tracks_restore (s : Startup) (mac : Text) (w : World) :
    Tracks mac (restoreProbes s mac w.reopen) (restore s w.reopen) := by
  refine ⟨fun a x b hlog t ht => ?_, fun h d hh hd => ?_⟩
  · obtain ⟨time, rfl⟩ := kickTime_of_mem_restoreProbes
      (hlog ▸ List.mem_append_right a List.mem_cons_self : x ∈ restoreProbes s mac w.reopen)
    cases ht
  · rw [after_restoreProbes, hh]
    exact hd

end Start

/-! ### The log and the trace -/

section Trace

variable {env : Env} {mac m ip4 : Text} {w : World}

/-- The times of the solicitations in a log. -/
def kickTimes (log : List Probe) : List ℕ := log.filterMap Probe.kickTime

/-- The solicitations of two parts of a log, newest first. -/
theorem reverse_kickTimes_append (log more : List Probe) :
    (kickTimes (log ++ more)).reverse = (kickTimes more).reverse ++ (kickTimes log).reverse := by
  rw [kickTimes, List.filterMap_append, List.reverse_append]
  rfl

/-- A trace with more effects in front. -/
theorem kicks_append (mac : Text) (effects trace : List Effect) :
    kicks mac (effects ++ trace) = kicks mac effects ++ kicks mac trace :=
  List.filterMap_append

/-- Following a next hop solicits nothing. -/
theorem kicks_follow (env : Env) (m : Text) (idx : ℕ) (nh : Option IPv6) (h : Host) (w : World) :
    kicks mac (follow env m idx nh h w).trace = kicks mac w.trace := by
  cases nh with
  | none => rfl
  | some n =>
      rw [follow]
      split
      · rfl
      · simp only [install_trace]
        rfl

/-- A withdrawal solicits nothing. -/
theorem kicks_withdraw (env : Env) (ip4 : Text) (w : World) :
    kicks mac (withdraw env ip4 w).trace = kicks mac w.trace := by
  obtain ⟨result, htrace⟩ := @withdraw_trace env ip4 w
  rw [htrace]
  rfl

/-- The table update of a lease line solicits nothing. -/
theorem kicks_record (env : Env) (iface m ip4 : Text) (w : World) :
    kicks mac (record env iface m ip4 w).trace = kicks mac w.trace := by
  obtain ⟨h, -, -, -, he⟩ | ⟨w₁, ⟨-, rfl⟩ | ⟨h, -, rfl⟩, he⟩ := record_cases env iface m ip4 w
  · rw [he]
    rfl
  · rw [he]
    rfl
  · rw [he]
    exact kicks_withdraw env h.ip4 w

/-- A release solicits nothing. -/
theorem kicks_onRelease (env : Env) (m ip4 : Text) (w : World) :
    kicks mac (onRelease env m ip4 w).trace = kicks mac w.trace := by
  rw [onRelease]
  split
  · rfl
  · rw [persist_trace]
    exact kicks_withdraw env _ { w with hosts := w.hosts.pop m }

/-- The solicitation step of another host sends nothing to this one. -/
theorem kicks_solicit_of_ne (hne : m ≠ mac) (nh gua : Option IPv6) (h : Host) :
    kicks mac (solicit env m nh gua h).2 = [] := by
  obtain ⟨-, he, -⟩ | ⟨d, t, g, -, -, -, he, -⟩ | ⟨-, he, -⟩ := solicit_cases env m nh gua h
  · rw [he]
    rfl
  · rw [he]
    simp [kicks, hne]
  · rw [he]
    rfl

/-- The solicitation step of the host itself, as the log has it. -/
theorem kicks_solicit_self (env : Env) (mac : Text) (nh gua : Option IPv6) (h : Host) :
    kicks mac (solicit env mac nh gua h).2 =
      (kickTimes (solicitProbes env mac nh gua h)).reverse := by
  obtain ⟨hp, he, -⟩ | ⟨d, t, g, -, -, hp, he, -⟩ | ⟨hp, he, -⟩ :=
    solicit_cases env mac nh gua h
  · rw [hp, he]
    rfl
  · rw [hp, he]
    simp [kicks, kickTimes, Probe.kickTime]
  · rw [hp, he]
    rfl

variable [UnicodeTables]

/-- `evaluate` of another MAC sends nothing to this one. -/
theorem kicks_evaluate_of_ne (hne : m ≠ mac) :
    kicks mac (evaluate env m w).2.trace = kicks mac w.trace := by
  obtain ⟨e, he⟩ | ⟨he, -⟩ | ⟨h, idx, nh, gua, -, -, -, he⟩ := evaluate_cases env m w
  · rw [he]
  · rw [he]
  · rw [he]
    simp only [kicks_follow, kicks_append, kicks_solicit_of_ne hne, List.nil_append]

/-- What `evaluate` sends to its own MAC. -/
theorem kicks_evaluate_self (env : Env) (mac : Text) (w : World) :
    kicks mac (evaluate env mac w).2.trace =
      (kickTimes (evaluateProbes env mac w)).reverse ++ kicks mac w.trace := by
  rw [evaluateProbes, evaluate]
  cases w.hosts.get mac with
  | none => rfl
  | some h =>
      simp only
      cases index env mac h.iface with
      | error e => rfl
      | ok i =>
          cases i with
          | none => rfl
          | some idx =>
              simp only
              cases bestNexthop env idx mac with
              | error e => rfl
              | ok r => simp only [kicks_follow, kicks_append, kicks_solicit_self]

/-- What a sweep sends to a MAC. -/
theorem kicks_sweep (env : Env) (mac : Text) (macs : List Text) (w : World) :
    kicks mac (evaluateEach env macs w).2.trace =
      (kickTimes (sweepProbes env mac macs w)).reverse ++ kicks mac w.trace := by
  refine @sweepProbes_invariant _ env mac
    (P := fun log w' => kicks mac w'.trace = (kickTimes log).reverse ++ kicks mac w.trace)
    (fun log w' h => ?_) (fun m log w' hm h => (kicks_evaluate_of_ne hm).trans h) macs [] w rfl
  rw [kicks_evaluate_self, h, reverse_kickTimes_append, List.append_assoc]

/-- What a turn sends to a MAC. -/
theorem kicks_step (env : Env) (mac : Text) (ev : Event) (w : World) :
    kicks mac (step env ev w).2.trace =
      (kickTimes (turnProbes env mac ev w)).reverse ++ kicks mac w.trace := by
  cases ev with
  | sweep => exact kicks_sweep env mac _ w
  | line line =>
      rw [turnProbes, step, handleLine_eq]
      cases readLine line with
      | none => rfl
      | some l =>
          cases l with
          | release m ip4 => exact kicks_onRelease env m ip4 w
          | lease iface m ip4 =>
              simp only [onLease]
              by_cases hm : m = mac
              · subst hm
                rw [if_pos rfl, kicks_evaluate_self, persist_trace, kicks_record]
                rfl
              · rw [if_neg hm, kicks_evaluate_of_ne hm, persist_trace, kicks_record]
                rfl

/-- **The log has the datagrams that are sent**, and no other. -/
theorem kicks_after (mac : Text) (es : List (Env × Event)) (w : World) :
    kicks mac (w.after es).trace = (kickTimes (probes mac es w)).reverse ++ kicks mac w.trace := by
  induction es generalizing w with
  | nil => rfl
  | cons e es ih =>
      rw [probes, reverse_kickTimes_append, List.append_assoc, ← kicks_step]
      exact ih _

/-- `restore` sends nothing. -/
theorem kicks_restore (s : Startup) (mac : Text) (w : World) :
    kicks mac (restore s w.reopen).trace = [] := by
  refine restore_invariant (I := fun w => kicks mac w.trace = []) (fun w' line h => ?_) rfl
  rw [← h, restoreLine]
  split
  · split <;> rfl
  · rfl

end Trace

/-! ### Lease lines -/

section Lines

/-- A log in which nothing is armed. -/
theorem countP_grants_eq_zero {log : List Probe} (h : ∀ x ∈ log, probeRules.grants x = none) :
    log.countP (fun x => (probeRules.grants x).isSome) = 0 := by
  refine List.countP_eq_zero.mpr fun x hx => ?_
  rw [h x hx]
  exact Bool.false_ne_true

variable [UnicodeTables] {env : Env} {mac : Text}

/-- `evaluate` arms nothing. -/
theorem not_armed_of_mem_evaluateProbes {w : World} {x : Probe}
    (hx : x ∈ evaluateProbes env mac w) : probeRules.grants x = none := by
  have hsolicit : ∀ nh gua h, x ∈ solicitProbes env mac nh gua h →
      probeRules.grants x = none := by
    intro nh gua h hx
    obtain ⟨hp, -⟩ | ⟨d, t, g, -, -, hp, -⟩ | ⟨hp, -⟩ := solicit_cases env mac nh gua h
    · rw [hp, List.mem_singleton] at hx
      rw [hx]
      rfl
    · rw [hp, List.mem_singleton] at hx
      rw [hx]
      rfl
    · rw [hp] at hx
      cases hx
  rw [evaluateProbes] at hx
  split at hx
  · cases hx
  · split at hx
    · cases hx
    · cases hx
    · split at hx
      · cases hx
      · exact hsolicit _ _ _ hx

/-- A sweep arms nothing. -/
theorem not_armed_of_mem_sweepProbes {macs : List Text} {w : World} {x : Probe}
    (hx : x ∈ sweepProbes env mac macs w) : probeRules.grants x = none := by
  have harms : ∀ x ∈ [] ++ sweepProbes env mac macs w, probeRules.grants x = none := by
    refine sweepProbes_invariant (P := fun log _ => ∀ x ∈ log, probeRules.grants x = none)
      (fun log w h x hx => ?_) (fun _ _ _ _ h => h) macs [] w nofun
    exact (List.mem_append.mp hx).elim (h x) not_armed_of_mem_evaluateProbes
  exact harms x hx

/-- A turn arms the check of the MAC once if it is a lease line of it. -/
theorem countP_turnProbes (env : Env) (mac : Text) (ev : Event) (w : World) :
    (turnProbes env mac ev w).countP (fun x => (probeRules.grants x).isSome) =
      if announces mac ev then 1 else 0 := by
  cases ev with
  | sweep => exact countP_grants_eq_zero fun x hx => not_armed_of_mem_sweepProbes hx
  | line line =>
      rw [turnProbes, announces]
      cases readLine line with
      | none => rfl
      | some l =>
          cases l with
          | release m ip4 => rfl
          | lease iface m ip4 =>
              simp only [decide_eq_true_eq]
              by_cases hm : m = mac
              · rw [if_pos hm, if_pos hm, List.countP_cons_of_pos rfl,
                  countP_grants_eq_zero fun x hx => not_armed_of_mem_evaluateProbes hx]
              · rw [if_neg hm, if_neg hm]
                rfl

/-- The check of a MAC is armed once for each lease line of it. -/
theorem countP_probes (mac : Text) (es : List (Env × Event)) (w : World) :
    (probes mac es w).countP (fun x => (probeRules.grants x).isSome) =
      es.countP fun e => announces mac e.2 := by
  induction es generalizing w with
  | nil => rfl
  | cons e es ih =>
      rw [probes, List.countP_append, ih, countP_turnProbes, List.countP_cons, Nat.add_comm]

end Lines

/-! ### At most once per lease -/

section Once

variable [UnicodeTables] {s : Startup} {mac : Text} {w : World} {es : List (Env × Event)}

/-- Every log is timely. -/
theorem timely_probeLog (s : Startup) (mac : Text) (w : World) (es : List (Env × Event)) :
    probeRules.Timely (probeLog s mac w es) :=
  (tracks_after es (tracks_restore s mac w)).1

/-- A turn restores nothing. -/
theorem not_restored_of_mem_turnProbes {env : Env} {ev : Event} {t : ℕ} :
    Probe.restored t ∉ turnProbes env mac ev w := by
  intro hx
  cases ev with
  | sweep => cases not_armed_of_mem_sweepProbes hx
  | line line =>
      rw [turnProbes] at hx
      split at hx
      · split at hx
        · rcases List.mem_cons.mp hx with h | h
          · cases h
          · cases not_armed_of_mem_evaluateProbes h
        · cases hx
      · cases hx

/-- What is restored is restored before any turn. -/
theorem not_restored_of_mem_probes {t : ℕ} : Probe.restored t ∉ probes mac es w := by
  induction es generalizing w with
  | nil => exact List.not_mem_nil
  | cons e es ih =>
      intro hx
      rcases List.mem_append.mp hx with h | h
      · exact not_restored_of_mem_turnProbes h
      · exact ih h

/-- What follows an entry of a turn in the log is of a turn as well. -/
theorem mem_probes_of_probeLog {a b : List Probe} {x y : Probe}
    (hlog : probeLog s mac w es = a ++ x :: b) (hx : ∀ t, x ≠ .restored t) (hy : y ∈ b) :
    y ∈ probes mac es (restore s w.reopen) := by
  rcases List.append_eq_append_iff.mp hlog with ⟨c, rfl, hc⟩ | ⟨c, hrestore, hc⟩
  · rw [hc]
    exact List.mem_append_right c (List.mem_cons_of_mem x hy)
  · cases c with
    | nil =>
        rw [List.nil_append] at hc
        rw [← hc]
        exact List.mem_cons_of_mem x hy
    | cons z c =>
        obtain ⟨rfl, rfl⟩ := List.cons.inj hc
        -- `x` would be restored
        obtain ⟨t, ht⟩ := kickTime_of_mem_restoreProbes
          (hrestore ▸ List.mem_append_right a List.mem_cons_self)
        exact absurd ht (hx t)

/-- **Between an entry that spends and the next solicitation there is a lease line.** -/
theorem armed_between {a b c : List Probe} {x : Probe} {t : ℕ}
    (hlog : probeLog s mac w es = a ++ x :: b ++ .kicked t :: c)
    (hx : probeRules.spends x = true) : ∃ time, .armed time ∈ b := by
  have htimely := timely_probeLog s mac w es
  rw [hlog] at htimely
  obtain ⟨y, hy, hgrant⟩ := htimely.grant_between hx (Option.some_ne_none t)
  cases y with
  | armed time => exact ⟨time, hy⟩
  | found => exact absurd rfl hgrant
  | kicked time => exact absurd rfl hgrant
  | restored time =>
      rw [List.append_assoc, List.cons_append] at hlog
      have hmem := mem_probes_of_probeLog hlog (fun t h => by rw [h] at hx; cases hx)
        (List.mem_append_left _ hy)
      exact absurd hmem not_restored_of_mem_probes

/-- A solicitation comes after the delay from the last entry that armed the check. -/
theorem due_of_probeLog {a c : List Probe} {t : ℕ}
    (hlog : probeLog s mac w es = a ++ .kicked t :: c) :
    ∃ a' x b time, a = a' ++ x :: b ∧ (x = .armed time ∨ x = .restored time) ∧
      (∀ y ∈ b, probeRules.grants y = none) ∧ time + GUA_PROBE_DELAY ≤ t := by
  have htimely := timely_probeLog s mac w es
  rw [hlog] at htimely
  obtain ⟨a', x, b, d, rfl, hx, hidle, hle⟩ := htimely.due rfl
  cases x with
  | armed time =>
      obtain rfl := Option.some.inj hx
      exact ⟨a', _, b, time, rfl, .inl rfl, fun y hy => (hidle y hy).1, hle⟩
  | restored time =>
      obtain rfl := Option.some.inj hx
      exact ⟨a', _, b, time, rfl, .inr rfl, fun y hy => (hidle y hy).1, hle⟩
  | found => cases hx
  | kicked time => cases hx

/-- The start leaves at most one permit, for the entry it restores. -/
theorem held_restore_le (s : Startup) (mac : Text) (w : World) :
    PermitRules.held (probeRules.after (restoreProbes s mac w.reopen)) ≤
      if ((restore s w.reopen).hosts.get mac).isSome then 1 else 0 := by
  rw [after_restoreProbes]
  cases (restore s w.reopen).hosts.get mac with
  | none => exact le_rfl
  | some h =>
      rw [Option.bind_some, Option.isSome_some, if_pos rfl, PermitRules.held]
      split
      · exact le_rfl
      · exact Nat.zero_le 1

/-- **There are no more solicitations than lease lines**, but for the restored entry. -/
theorem length_kicks_le (s : Startup) (mac : Text) (w : World) (es : List (Env × Event)) :
    (kicks mac ((restore s w.reopen).after es).trace).length ≤
      (es.countP fun e => announces mac e.2) +
        (if ((restore s w.reopen).hosts.get mac).isSome then 1 else 0) := by
  have hcount := (timely_probeLog s mac w es).count_le
  rw [countP_probes] at hcount
  have hheld := held_restore_le s mac w
  have hlength : (kicks mac ((restore s w.reopen).after es).trace).length =
      (probes mac es (restore s w.reopen)).countP fun x => (probeRules.uses x).isSome := by
    rw [kicks_after, kicks_restore, List.append_nil, List.length_reverse, kickTimes,
      List.length_filterMap_eq_countP]
    rfl
  omega

/-- **The solicitations of a MAC** over a start and any turns after it, whatever the ND
caches, prefixes and clock readings and whichever calls fail. -/
theorem solicits_once (s : Startup) (mac : Text) (w : World) (es : List (Env × Event)) :
    (kicks mac ((restore s w.reopen).after es).trace).length ≤
      (es.countP fun e => announces mac e.2) +
        (if ((restore s w.reopen).hosts.get mac).isSome then 1 else 0) ∧
    (∀ a t b t' c, probeLog s mac w es = a ++ .kicked t :: b ++ .kicked t' :: c →
      ∃ time, .armed time ∈ b) ∧
    (∀ a t c, probeLog s mac w es = a ++ .kicked t :: c →
      ∃ a' x b time, a = a' ++ x :: b ∧ (x = .armed time ∨ x = .restored time) ∧
        (∀ y ∈ b, probeRules.grants y = none) ∧ time + GUA_PROBE_DELAY ≤ t) ∧
    ∀ a b t c, probeLog s mac w es = a ++ .found :: b ++ .kicked t :: c →
      ∃ time, .armed time ∈ b := by
  refine ⟨length_kicks_le s mac w es, fun a t b t' c hlog => ?_, fun a t c hlog => ?_,
    fun a b t c hlog => ?_⟩
  · exact armed_between hlog rfl
  · exact due_of_probeLog hlog
  · exact armed_between hlog rfl

end Once

end V4WithV6Nh.Manager
