import V4WithV6Nh.DefaultRoute
import V4WithV6Nh.Ipv6Text
import V4WithV6Nh.PinRemoval

/-!
# The State-File Gate

With `-f` both C daemons manage the interface while the state file names the sentinel. They
compare as many characters as the address has, so a line that goes on with something else
passes as well. `dhclient-exit-hooks` compares the whole Router option, and the files that
it leaves are taken for what they are.

## Main results

* `FreebsdDaemon.gate_iff_sentinelLeased`: over any run of the hook, the gate passes exactly
  when the last lease names the sentinel.
* `gate_exact_iff`: the gate passes exactly on the files that record the address, if and
  only if behind an address at the beginning of the file the line has only whitespace, or
  the file cannot be opened.
-/

namespace V4WithV6Nh

/-! ### The first line -/

/-- A text of whitespace. -/
def Blank (t : Text) : Prop := ∀ c ∈ t, isAsciiSpace c = true

instance : DecidablePred Blank := fun t => List.decidableBAll _ t

/-- The first line of the file is the address, and whitespace. -/
def Records (addr : Text) (files : Text → Option Text) (path : Text) : Prop :=
  ∃ content ws, files path = some content ∧ firstLine content = addr ++ ws ∧ Blank ws

/-- The file begins with the address. -/
def Begins (addr : Text) (files : Text → Option Text) (path : Text) : Prop :=
  ∃ rest, files path = some (addr ++ rest)

/-- If the file begins with the address, then the line ends there, but for whitespace,
exactly when the file can be opened. -/
def EndsThere (addr : Text) (files : Text → Option Text) (path : Text) (fails : Bool) : Prop :=
  ∀ rest, files path = some (addr ++ rest) → (Blank (firstLine rest) ↔ fails = false)

/-- A dotted quad. -/
def IsDottedQuad (t : Text) : Prop := (parseQuad t).isSome = true

instance : DecidablePred IsDottedQuad := fun _ => inferInstanceAs (Decidable (_ = true))

section Files

variable {addr path : Text} {files : Text → Option Text} {fails : Bool}

/-- A decimal number has at most three characters, and no newline. -/
theorem word_of_parseDecimal {t : Text} {b : BitVec 8} (h : parseDecimal t = some b) :
    t ≠ [] ∧ t.length ≤ 3 ∧ '\n' ∉ t := by
  rw [parseDecimal] at h
  split at h
  · rename_i hlength
    refine ⟨hlength.1, hlength.2, fun hline => ?_⟩
    split at h
    · rename_i hscan
      exact isDigit_of_scanDigits hscan '\n' hline (by decide)
    · cases h
  · cases h

/-- A dotted quad is four words with dots between them. -/
theorem IsDottedQuad.word (h : IsDottedQuad addr) :
    addr ≠ [] ∧ addr.length < 64 ∧ '\n' ∉ addr := by
  rw [IsDottedQuad, parseQuad] at h
  split at h
  · rename_i a b c d hoctets
    have hspells := mapM_eq_some_iff.mp hoctets
    have hjoined : ['.'].intercalate (addr.splitOn '.') = addr := List.intercalate_splitOn '.'
    rw [← hjoined]
    generalize addr.splitOn '.' = pieces at hspells
    obtain _ | ⟨hp, _ | ⟨hq, _ | ⟨hr, _ | ⟨hs, _ | _⟩⟩⟩⟩ := hspells
    obtain ⟨hpne, hplen, hpline⟩ := word_of_parseDecimal hp
    obtain ⟨-, hqlen, hqline⟩ := word_of_parseDecimal hq
    obtain ⟨-, hrlen, hrline⟩ := word_of_parseDecimal hr
    obtain ⟨-, hslen, hsline⟩ := word_of_parseDecimal hs
    simp [List.intercalate, hpline, hqline, hrline, hsline]
    omega
  · cases h

/-- The file records the address exactly when the line ends behind it. -/
theorem records_iff (hline : '\n' ∉ addr) :
    Records addr files path ↔
      ∃ rest, files path = some (addr ++ rest) ∧ Blank (firstLine rest) := by
  constructor
  · rintro ⟨content, ws, hfile, hfirst, hblank⟩
    obtain ⟨rest, rfl⟩ := (firstLine_begins_iff hline).mp
      (List.isPrefixOf_iff_prefix.mpr ⟨ws, hfirst.symm⟩)
    rw [firstLine_append hline] at hfirst
    exact ⟨rest, hfile, List.append_cancel_left hfirst ▸ hblank⟩
  · rintro ⟨rest, hfile, hblank⟩
    exact ⟨addr ++ rest, firstLine rest, hfile, firstLine_append hline rest, hblank⟩

/-- A gate that passes on the files that begin with the address, if they can be opened,
passes on those that record it exactly when the line ends there. -/
theorem passes_iff_endsThere (hline : '\n' ∉ addr) {passes : Prop}
    (hpasses : passes ↔ fails = false ∧ Begins addr files path) :
    (passes ↔ Records addr files path) ↔ EndsThere addr files path fails := by
  rw [hpasses, records_iff hline, EndsThere, Begins]
  constructor
  · intro h rest hfile
    constructor
    · exact fun hblank => (h.mpr ⟨rest, hfile, hblank⟩).1
    · intro hopen
      obtain ⟨rest', hfile', hblank⟩ := h.mp ⟨hopen, rest, hfile⟩
      obtain rfl := List.append_cancel_left (Option.some.inj (hfile.symm.trans hfile'))
      exact hblank
  · intro h
    constructor
    · rintro ⟨hopen, rest, hfile⟩
      exact ⟨rest, hfile, (h rest hfile).mpr hopen⟩
    · rintro ⟨rest, hfile, hblank⟩
      exact ⟨(h rest hfile).mp hblank, rest, hfile⟩

/-- What both daemons ask of the file. -/
theorem begins_of_fgets_iff (hne : addr ≠ []) (hlength : addr.length < 64)
    (hline : '\n' ∉ addr) :
    (∃ buf, (if fails then none else files path).bind (fgets 64) = some buf ∧
        addr.isPrefixOf buf = true) ↔ fails = false ∧ Begins addr files path := by
  cases fails with
  | true =>
      refine iff_of_false ?_ fun h => Bool.false_ne_true h.1.symm
      rintro ⟨buf, hbuf, -⟩
      cases hbuf
  | false =>
      simp only [Bool.false_eq_true, if_false, true_and, Begins]
      cases files path with
      | none =>
          refine iff_of_false ?_ ?_
          · rintro ⟨buf, hbuf, -⟩
            cases hbuf
          · rintro ⟨rest, hrest⟩
            cases hrest
      | some content =>
          rw [Option.bind_some, fgets_begins_iff hline hne hlength]
          simp only [Option.some.injEq]

end Files

/-! ### The macOS daemon -/

namespace MacosDaemon

variable {calls : Calls} {cfg : Config} {d : Daemon} {w : World} {path : Text}

/-- With `-f`, the gate passes on the files that begin with the address. -/
theorem gate_iff_begins (hfile : cfg.sentinelFile = some path)
    (hquad : IsDottedQuad cfg.sentinelStr) :
    gate calls cfg w = true ↔ calls.fopen path = false ∧ Begins cfg.sentinelStr w.files path := by
  obtain ⟨hne, hlength, hline⟩ := hquad.word
  have hroute : cfg.requireSentinelRoute = false :=
    requireSentinelRoute_of_one_gate cfg.one_gate hfile
  have hgate : gate calls cfg w = sentinelInFile calls w.files cfg path := by
    rw [gate, hfile, hroute]
    exact Bool.and_true _
  rw [hgate, sentinelInFile, fopen, ← begins_of_fgets_iff hne hlength hline]
  cases (if calls.fopen path then none else w.files path).bind (fgets 64) with
  | none => simp
  | some buf => simp

/-- A pass on a present interface that does not get past the gate withdraws. -/
theorem reconcile_of_not_gate (A : Arp) (hif : w.ifNametoindex d.cfg.ifname ≠ 0)
    (hgate : gate calls d.cfg w = false) : reconcile A calls d w = withdraw A calls d w := by
  rw [reconcile, if_neg hif, hgate, if_pos Bool.false_ne_true]

end MacosDaemon

/-! ### The FreeBSD daemon and its hook -/

namespace FreebsdDaemon

variable {calls : Calls} {cfg : Config} {d : Daemon} {w : World} {path : Text}

theorem isDottedQuad_sentinelText : IsDottedQuad SENTINEL_TEXT := by decide

/-- With `-f`, the gate passes on the files that begin with the sentinel. -/
theorem gate_iff_begins (hfile : cfg.sentinelFile = some path) :
    gate calls cfg w = true ↔ calls.fopen = false ∧ Begins SENTINEL_TEXT w.files path := by
  obtain ⟨hne, hlength, hline⟩ := isDottedQuad_sentinelText.word
  have hroute : cfg.requireSentinelRoute = false :=
    requireSentinelRoute_of_one_gate cfg.one_gate hfile
  have hgate : gate calls cfg w = sentinelInFile calls w.files path := by
    rw [gate, hfile, hroute]
    exact Bool.and_true _
  rw [hgate, sentinelInFile, ← begins_of_fgets_iff hne hlength hline]
  cases (if calls.fopen then none else w.files path).bind (fgets 64) with
  | none => simp
  | some buf => simp

/-- A pass on a present interface that does not get past the gate withdraws. -/
theorem reconcile_of_not_gate (hif : w.ifNametoindex d.cfg.ifname ≠ 0)
    (hgate : gate calls d.cfg w = false) : reconcile calls d w =
      withdraw calls { d with ifindex := w.ifNametoindex d.cfg.ifname } w := by
  rw [reconcile]
  simp only [if_neg hif, hgate, Bool.false_eq_true, not_false_eq_true, if_true]

/-- The `reason` of a hook. -/
inductive Reason
  | bound
  | renew
  | rebind
  | reboot
  | expire
  | release
  | fail
  | stop
  | other
deriving DecidableEq

/-- `V4GWD_STATE`. -/
def V4GWD_STATE (interface : Text) : Text :=
  "/var/run/v4gwd.".toList ++ interface ++ ".router".toList

/-- `dhclient-exit-hooks`, with the Router option as `new_routers`. -/
def dhclientExitHooks (interface : Text) (reason : Reason) (newRouters : Text)
    (files : Text → Option Text) : Text → Option Text :=
  match reason with
  | .bound | .renew | .rebind | .reboot =>
      if newRouters = SENTINEL_TEXT then
        Function.update files (V4GWD_STATE interface) (some (newRouters ++ ['\n']))
      else Function.update files (V4GWD_STATE interface) none
  | .expire | .release | .fail | .stop =>
      Function.update files (V4GWD_STATE interface) none
  | .other => files

/-- Whether the last lease names the sentinel, and nothing else, as its router. -/
def sentinelLeased (last : Bool) (e : Reason × Text) : Bool :=
  match e.1 with
  | .bound | .renew | .rebind | .reboot => decide (e.2 = SENTINEL_TEXT)
  | .expire | .release | .fail | .stop => false
  | .other => last

/-- The state file holds the sentinel if the last lease does, and is not there else. -/
def Holds (interface : Text) (last : Bool) (files : Text → Option Text) : Prop :=
  files (V4GWD_STATE interface) = if last then some (SENTINEL_TEXT ++ ['\n']) else none

/-- The state file after some events. -/
def afterHooks (interface : Text) (events : List (Reason × Text)) (files : Text → Option Text) :
    Text → Option Text :=
  events.foldl (fun files e => dhclientExitHooks interface e.1 e.2 files) files

section Hooks

variable {interface : Text} {files : Text → Option Text} {last : Bool}

/-- One event. -/
theorem holds_dhclientExitHooks (h : Holds interface last files) (e : Reason × Text) :
    Holds interface (sentinelLeased last e) (dhclientExitHooks interface e.1 e.2 files) := by
  obtain ⟨reason, newRouters⟩ := e
  have hlease : Holds interface (decide (newRouters = SENTINEL_TEXT))
      (if newRouters = SENTINEL_TEXT then
        Function.update files (V4GWD_STATE interface) (some (newRouters ++ ['\n']))
      else Function.update files (V4GWD_STATE interface) none) := by
    rw [Holds]
    split
    · rename_i hrouters
      subst hrouters
      rw [Function.update_self, decide_eq_true rfl, if_pos rfl]
    · rename_i hrouters
      rw [Function.update_self, decide_eq_false hrouters, if_neg Bool.false_ne_true]
  cases reason with
  | bound | renew | rebind | reboot => exact hlease
  | expire | release | fail | stop => exact Function.update_self ..
  | other => exact h

/-- Any run of events. -/
theorem holds_afterHooks (h : Holds interface last files) (events : List (Reason × Text)) :
    Holds interface (events.foldl sentinelLeased last) (afterHooks interface events files) := by
  induction events generalizing last files with
  | nil => exact h
  | cons e events ih => exact ih (holds_dhclientExitHooks h e)

theorem holds_afterHooks_of_none (hnone : files (V4GWD_STATE interface) = none)
    (events : List (Reason × Text)) :
    Holds interface (events.foldl sentinelLeased false) (afterHooks interface events files) :=
  @holds_afterHooks interface files false hnone events

/-- In the files of the hook the line ends behind the sentinel. -/
theorem Holds.endsThere (h : Holds interface last files) :
    EndsThere SENTINEL_TEXT files (V4GWD_STATE interface) false := by
  intro rest hfile
  rw [h] at hfile
  split at hfile
  · obtain rfl := List.append_cancel_left (Option.some.inj hfile)
    exact iff_of_true (by decide) rfl
  · cases hfile

/-- **The gate agrees with the hook**: after any run of it from no file, the gate passes
exactly when the last lease names the sentinel and nothing else. -/
theorem gate_iff_sentinelLeased (hnone : files (V4GWD_STATE interface) = none)
    (events : List (Reason × Text)) (hcfg : cfg.sentinelFile = some (V4GWD_STATE interface))
    (hopen : calls.fopen = false) (hw : w.files = afterHooks interface events files) :
    gate calls cfg w = true ↔ events.foldl sentinelLeased false = true := by
  have hholds : Holds interface _ w.files := hw ▸ holds_afterHooks_of_none hnone events
  rw [gate_iff_begins hcfg, Begins, hholds]
  cases events.foldl sentinelLeased false with
  | false => simp
  | true => simp [hopen]

end Hooks

end FreebsdDaemon

/-! ### Both gates -/

/-- The pass gets past the gate if the file records the address, and else it withdraws. -/
def ExactGate (recorded : Prop) (gate : Bool) (withdraws : Prop) : Prop :=
  (recorded → gate = true) ∧ (¬ recorded → gate = false ∧ withdraws)

/-- When a closed gate withdraws. -/
theorem exactGate_iff {recorded withdraws : Prop} {gate : Bool} (h : gate = false → withdraws) :
    ExactGate recorded gate withdraws ↔ (gate = true ↔ recorded) := by
  constructor
  · rintro ⟨hopen, hclosed⟩
    refine ⟨fun hgate => ?_, hopen⟩
    by_contra hnot
    rw [(hclosed hnot).1] at hgate
    cases hgate
  · intro hiff
    refine ⟨hiff.mpr, fun hnot => ?_⟩
    have hgate : gate = false := by
      rw [← Bool.not_eq_true, hiff]
      exact hnot
    exact ⟨hgate, h hgate⟩

/-- **Exactly when the gate recognizes the sentinel**: for every file and every configured
dotted quad, in both daemons, when the line ends behind an address at the beginning of the
file, if it can be opened. The files that the hook leaves are so, and on them the gate
agrees with the hook. -/
theorem gate_exact_iff (path : Text) (A : Arp) (calls : MacosDaemon.Calls)
    (d : MacosDaemon.Daemon) (w : MacosDaemon.World) (calls' : FreebsdDaemon.Calls)
    (d' : FreebsdDaemon.Daemon) (w' : FreebsdDaemon.World) (interface : Text)
    (files : Text → Option Text) (events : List (FreebsdDaemon.Reason × Text)) :
    (d.cfg.sentinelFile = some path → IsDottedQuad d.cfg.sentinelStr →
      w.ifNametoindex d.cfg.ifname ≠ 0 →
      (ExactGate (Records d.cfg.sentinelStr w.files path) (MacosDaemon.gate calls d.cfg w)
          (MacosDaemon.reconcile A calls d w = MacosDaemon.withdraw A calls d w) ↔
        EndsThere d.cfg.sentinelStr w.files path (calls.fopen path))) ∧
    (d'.cfg.sentinelFile = some path → w'.ifNametoindex d'.cfg.ifname ≠ 0 →
      (ExactGate (Records FreebsdDaemon.SENTINEL_TEXT w'.files path)
          (FreebsdDaemon.gate calls' d'.cfg w')
          (FreebsdDaemon.reconcile calls' d' w' = FreebsdDaemon.withdraw calls'
            { d' with ifindex := w'.ifNametoindex d'.cfg.ifname } w') ↔
        EndsThere FreebsdDaemon.SENTINEL_TEXT w'.files path calls'.fopen)) ∧
    (files (FreebsdDaemon.V4GWD_STATE interface) = none →
      w'.files = FreebsdDaemon.afterHooks interface events files →
      d'.cfg.sentinelFile = some (FreebsdDaemon.V4GWD_STATE interface) →
      calls'.fopen = false →
      EndsThere FreebsdDaemon.SENTINEL_TEXT w'.files (FreebsdDaemon.V4GWD_STATE interface)
          calls'.fopen ∧
        (FreebsdDaemon.gate calls' d'.cfg w' = true ↔
          events.foldl FreebsdDaemon.sentinelLeased false = true)) := by
  refine ⟨fun hfile hquad hif => ?_, fun hfile hif => ?_,
    fun hnone hw hfile hopen => ⟨?_, ?_⟩⟩
  · rw [exactGate_iff (MacosDaemon.reconcile_of_not_gate A hif)]
    exact passes_iff_endsThere hquad.word.2.2 (MacosDaemon.gate_iff_begins hfile hquad)
  · rw [exactGate_iff (FreebsdDaemon.reconcile_of_not_gate hif)]
    exact passes_iff_endsThere FreebsdDaemon.isDottedQuad_sentinelText.word.2.2
      (FreebsdDaemon.gate_iff_begins hfile)
  · rw [hopen, hw]
    exact (FreebsdDaemon.holds_afterHooks_of_none hnone events).endsThere
  · exact FreebsdDaemon.gate_iff_sentinelLeased hnone events hfile hopen hw

/-! ### An address that goes on -/

/-- The state file of the examples. -/
def stateFile : Text := "/var/run/router".toList

/-- `V4GW_GATEWAY` in the examples. -/
def gatewayText : Text := "192.0.0.1".toList

/-- `en0` with `-f` and that gateway. -/
def MacosDaemon.gatedByFile : MacosDaemon.Daemon :=
  .fresh ⟨"en0".toList, false, some stateFile, gatewayText, 0xc0000001,
    fun h => Bool.false_ne_true h.1⟩

/-- `en0` with a default router and the content of the state file. -/
def MacosDaemon.withFile (content : Text) : MacosDaemon.World :=
  { MacosDaemon.withRouter with files := fun _ => some content }

/-- `em0` with `-f`. -/
def FreebsdDaemon.gatedByFile : FreebsdDaemon.Daemon :=
  .fresh ⟨"em0".toList, false, some stateFile, fun h => Bool.false_ne_true h.1⟩ 2

/-- `em0` with a default router and the content of the state file. -/
def FreebsdDaemon.withFile (content : Text) : FreebsdDaemon.World :=
  { FreebsdDaemon.withRouter FreebsdDaemon.gwA [] with files := fun _ => some content }

/-- `em0` with `-f` and the state file of the hook. -/
def FreebsdDaemon.hooked : FreebsdDaemon.Daemon :=
  .fresh ⟨"em0".toList, false, some (FreebsdDaemon.V4GWD_STATE "em0".toList),
    fun h => Bool.false_ne_true h.1⟩ 2

/-- `em0` after a lease that names the sentinel. -/
def FreebsdDaemon.leased : FreebsdDaemon.World :=
  { FreebsdDaemon.withRouter FreebsdDaemon.gwA [] with
    files := FreebsdDaemon.afterHooks "em0".toList [(.bound, FreebsdDaemon.SENTINEL_TEXT)]
      fun _ => none }

theorem isDottedQuad_gatewayText : IsDottedQuad gatewayText := by decide

/-- A file that can be opened and begins with the address. -/
theorem endsThere_iff {addr rest path : Text} :
    EndsThere addr (fun _ => some (addr ++ rest)) path false ↔ Blank (firstLine rest) := by
  constructor
  · exact fun h => (h rest rfl).mpr rfl
  · intro hblank rest' hfile
    obtain rfl := List.append_cancel_left (Option.some.inj hfile)
    exact iff_of_true hblank rfl

/-- A file that begins with the address and goes on does not record it. -/
theorem not_records {addr rest path : Text} (hline : '\n' ∉ addr)
    (h : ¬ Blank (firstLine rest)) : ¬ Records addr (fun _ => some (addr ++ rest)) path := by
  rw [records_iff hline]
  rintro ⟨rest', hfile, hblank⟩
  obtain rfl := List.append_cancel_left (Option.some.inj hfile)
  exact h hblank

theorem ifNametoindex_em0 (content : Text) :
    (FreebsdDaemon.withFile content).ifNametoindex FreebsdDaemon.gatedByFile.cfg.ifname ≠ 0 := by
  simp [FreebsdDaemon.withFile, FreebsdDaemon.withRouter, FreebsdDaemon.gatedByFile,
    FreebsdDaemon.Daemon.fresh]

/-- The gates on a line with the address, and after a lease that names the sentinel. -/
theorem gate_exact_line :
    ExactGate (Records gatewayText (MacosDaemon.withFile (gatewayText ++ ['\n'])).files stateFile)
        (MacosDaemon.gate .succeed MacosDaemon.gatedByFile.cfg
          (MacosDaemon.withFile (gatewayText ++ ['\n'])))
        (MacosDaemon.reconcile plainArp .succeed MacosDaemon.gatedByFile
            (MacosDaemon.withFile (gatewayText ++ ['\n'])) =
          MacosDaemon.withdraw plainArp .succeed MacosDaemon.gatedByFile
            (MacosDaemon.withFile (gatewayText ++ ['\n']))) ∧
      ExactGate
        (Records FreebsdDaemon.SENTINEL_TEXT
          (FreebsdDaemon.withFile (FreebsdDaemon.SENTINEL_TEXT ++ ['\n'])).files stateFile)
        (FreebsdDaemon.gate .succeed FreebsdDaemon.gatedByFile.cfg
          (FreebsdDaemon.withFile (FreebsdDaemon.SENTINEL_TEXT ++ ['\n'])))
        (FreebsdDaemon.reconcile .succeed FreebsdDaemon.gatedByFile
            (FreebsdDaemon.withFile (FreebsdDaemon.SENTINEL_TEXT ++ ['\n'])) =
          FreebsdDaemon.withdraw .succeed { FreebsdDaemon.gatedByFile with ifindex := 2 }
            (FreebsdDaemon.withFile (FreebsdDaemon.SENTINEL_TEXT ++ ['\n']))) ∧
      FreebsdDaemon.gate .succeed FreebsdDaemon.hooked.cfg FreebsdDaemon.leased = true := by
  have hlines := gate_exact_iff stateFile plainArp .succeed MacosDaemon.gatedByFile
    (MacosDaemon.withFile (gatewayText ++ ['\n'])) .succeed FreebsdDaemon.gatedByFile
    (FreebsdDaemon.withFile (FreebsdDaemon.SENTINEL_TEXT ++ ['\n'])) "em0".toList
    (fun _ => none) []
  have hlease := gate_exact_iff stateFile plainArp .succeed MacosDaemon.gatedByFile
    (MacosDaemon.withFile []) .succeed FreebsdDaemon.hooked FreebsdDaemon.leased "em0".toList
    (fun _ => none) [(.bound, FreebsdDaemon.SENTINEL_TEXT)]
  refine ⟨(hlines.1 rfl isDottedQuad_gatewayText (by decide)).mpr ?_,
    (hlines.2.1 rfl (ifNametoindex_em0 _)).mpr ?_, (hlease.2.2 rfl rfl rfl rfl).2.mpr rfl⟩
  · exact endsThere_iff.mpr (by decide)
  · exact endsThere_iff.mpr (by decide)

/-- **An address that goes on passes**: macOS with the gateway 192.0.0.1 takes a file for
192.0.0.11, FreeBSD one for 192.0.0.110, and both manage the interface. -/
theorem longer_address_passes :
    (¬ Records gatewayText (MacosDaemon.withFile "192.0.0.11\n".toList).files stateFile ∧
      MacosDaemon.gate .succeed MacosDaemon.gatedByFile.cfg
        (MacosDaemon.withFile "192.0.0.11\n".toList) = true ∧
      (MacosDaemon.reconcile plainArp .succeed MacosDaemon.gatedByFile
        (MacosDaemon.withFile "192.0.0.11\n".toList)).1.arpInstalled = true) ∧
    ¬ Records FreebsdDaemon.SENTINEL_TEXT (FreebsdDaemon.withFile "192.0.0.110\n".toList).files
        stateFile ∧
      FreebsdDaemon.gate .succeed FreebsdDaemon.gatedByFile.cfg
        (FreebsdDaemon.withFile "192.0.0.110\n".toList) = true ∧
      (FreebsdDaemon.reconcile .succeed FreebsdDaemon.gatedByFile
        (FreebsdDaemon.withFile "192.0.0.110\n".toList)).1.routeInstalled = true := by
  have hmacos : "192.0.0.11\n".toList = gatewayText ++ ['1', '\n'] := by decide
  have hfreebsd : "192.0.0.110\n".toList = FreebsdDaemon.SENTINEL_TEXT ++ ['0', '\n'] := by decide
  refine ⟨⟨?_, by decide, by decide⟩, ?_, by decide, by decide⟩
  · rw [hmacos]
    exact not_records isDottedQuad_gatewayText.word.2.2 (by decide)
  · rw [hfreebsd]
    exact not_records FreebsdDaemon.isDottedQuad_sentinelText.word.2.2 (by decide)

end V4WithV6Nh
