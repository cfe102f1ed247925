import V4WithV6Nh.ReturnRoutes

/-!
# The State File of the Return-Route Daemon

`persist` writes one line per host, `<mac> <interface> <address>`, and a new process reads
the file back in `restore`, where it drops what the lease file of dnsmasq no longer has.
The lines are printed by one method and split by another, with MACs put into lower case on
both sides.

A file that cannot be read counts as absent. Universal newlines change nothing: where
they make a line end, `splitlines` sees one anyway.

## Main results

* `restoreLines_stateText`: what is printed is read back, entry by entry and in order.
* `restore_of_run`: a process that is killed between two turns is followed by one with the
  same leases, less those that dnsmasq has dropped.
-/

namespace V4WithV6Nh.Manager

/-! ### Starting again -/

/-- What a process reads at its start. -/
structure Startup where
  /-- The lease file of dnsmasq, `none` if it cannot be read. -/
  leases : Option Text
  /-- `time.monotonic()` at the `k`-th line of the state file. -/
  monotonic : ℕ → ℕ

section Restore

variable [UnicodeTables]

/-- `Manager._live_leases`: the MACs and addresses in the lease file. -/
def liveLeases (leases : Option Text) : Option (List (Text × Text)) :=
  leases.map fun text => (splitlines text).filterMap fun row =>
    match split row with
    | _ :: mac :: ip4 :: _ => some (UnicodeTables.lower mac, ip4)
    | _ => none

/-- The lease is in the lease file, or there is none to tell. -/
def isLive (live : Option (List (Text × Text))) (mac ip4 : Text) : Bool :=
  match live with
  | none => true
  | some leases => decide ((mac, ip4) ∈ leases)

/-- The entry that `restore` makes at the `k`-th line. -/
def Startup.host (s : Startup) (iface ip4 : Text) (k : ℕ) : Host where
  iface := iface
  ip4 := ip4
  nh := none
  probeAt := some (s.monotonic k + GUA_PROBE_DELAY)

/-- One round of the loop of `restore`. -/
def restoreLine (s : Startup) (w : World) (line : Text × ℕ) : World :=
  match split line.1 with
  | [mac, iface, ip4] =>
      if isLive (liveLeases s.leases) (UnicodeTables.lower mac) ip4 then
        { w with
          hosts := w.hosts.set (UnicodeTables.lower mac) (s.host iface ip4 line.2)
          trace := .armed (UnicodeTables.lower mac) (s.monotonic line.2 + GUA_PROBE_DELAY) ::
            .tracked (UnicodeTables.lower mac) iface ip4 :: w.trace }
      else w
  | _ => w

/-- `Manager.restore`. -/
def restore (s : Startup) (w : World) : World :=
  match w.state with
  | none => w
  | some text => (splitlines text).zipIdx.foldl (restoreLine s) w

/-- A new process: what is left is the kernel and the state file. -/
def World.reopen (w : World) : World :=
  { w with hosts := OrderedDict.empty, trace := [] }

end Restore

/-! ### Printing and reading -/

/-- The leases of the table, with their MACs, in order. -/
def World.leases (w : World) : List (Text × Text × Text) :=
  w.hosts.entries.map fun e => (e.1, e.2.iface, e.2.ip4)

/-- The line of a lease. -/
def leaseLine (l : Text × Text × Text) : Text := l.1 ++ ' ' :: l.2.1 ++ ' ' :: l.2.2

/-- The state file of a list of leases. -/
def stateText (leases : List (Text × Text × Text)) : Text :=
  leases.flatMap fun l => leaseLine l ++ ['\n']

/-- `persist` prints the leases of the table. -/
theorem persist_state {env : Env} {w : World} (h : env.stateWriteFails = false) :
    (persist env w).state = some (stateText w.leases) := by
  rw [persist, h, if_neg Bool.false_ne_true, stateText, World.leases, List.flatMap_map]
  rfl

section Reading

variable [UnicodeTables] {s : Startup} {leases : List (Text × Text × Text)}

/-- A lease as `handle_line` makes it: three tokens, the MAC in lower case. -/
def Writable (l : Text × Text × Text) : Prop :=
  (IsToken l.1 ∧ UnicodeTables.lower l.1 = l.1) ∧ IsToken l.2.1 ∧ IsToken l.2.2

/-- A new entry: nothing is remembered as installed, and the probe is armed. -/
def Startup.Fresh (s : Startup) (h : Host) : Prop :=
  h.nh = none ∧ ∃ k, h.probeAt = some (s.monotonic k + GUA_PROBE_DELAY)

/-- `restore` keeps the lease. -/
def Startup.keeps (s : Startup) (l : Text × Text × Text) : Bool :=
  isLive (liveLeases s.leases) l.1 l.2.2

/-- The line of a lease splits into its fields. -/
theorem split_leaseLine {l : Text × Text × Text} (hl : Writable l) :
    split (leaseLine l) = [l.1, l.2.1, l.2.2] := by
  have hblank : isSpace ' ' = true := by decide
  obtain ⟨⟨hmac, -⟩, hiface, hip⟩ := hl
  rw [leaseLine, split, List.append_assoc, List.cons_append, tokens_cons hmac hblank,
    tokens_cons hiface hblank, tokens_word hip]

/-- The line of a lease has no line break. -/
theorem isLineBreak_of_mem_leaseLine {l : Text × Text × Text} (hl : Writable l) {c : Char}
    (hc : c ∈ leaseLine l) : isLineBreak c = false := by
  have hfield : ∀ t, IsToken t → c ∈ t → isLineBreak c = false := by
    intro t ht hct
    by_contra hbreak
    have hspace := isSpace_of_isLineBreak ((Bool.not_eq_false _).mp hbreak)
    rw [ht.2 c hct] at hspace
    cases hspace
  obtain ⟨⟨hmac, -⟩, hiface, hip⟩ := hl
  rw [leaseLine, List.append_assoc, List.mem_append, List.cons_append, List.mem_cons,
    List.mem_append, List.mem_cons] at hc
  rcases hc with hc | rfl | hc | rfl | hc
  · exact hfield _ hmac hc
  · rfl
  · exact hfield _ hiface hc
  · rfl
  · exact hfield _ hip hc

/-- The state file has one line per lease. -/
theorem splitlines_stateText (hl : ∀ l ∈ leases, Writable l) :
    splitlines (stateText leases) = leases.map leaseLine := by
  induction leases with
  | nil => rfl
  | cons l leases ih =>
      have hline := fun c hc => isLineBreak_of_mem_leaseLine (hl l List.mem_cons_self) (c := c) hc
      rw [stateText, List.flatMap_cons, List.append_assoc, List.singleton_append, splitlines,
        splitlinesFrom_line _ _ hline, List.nil_append, List.map_cons, ← stateText,
        ih fun l' hl' => hl l' (List.mem_cons_of_mem _ hl')]

/-- The line of a lease makes an entry for it, if it is live. -/
theorem restoreLine_leaseLine {l : Text × Text × Text} (hl : Writable l) (w : World) (k : ℕ) :
    (restoreLine s w (leaseLine l, k)).hosts =
      if s.keeps l then w.hosts.set l.1 (s.host l.2.1 l.2.2 k) else w.hosts := by
  rw [restoreLine, split_leaseLine hl]
  simp only [hl.1.2]
  by_cases hlive : s.keeps l
  · rw [if_pos hlive, if_pos (show isLive (liveLeases s.leases) l.1 l.2.2 = true from hlive)]
  · rw [if_neg hlive, if_neg (show ¬ isLive (liveLeases s.leases) l.1 l.2.2 = true from hlive)]

/-- **What is printed is read back**: the lines of leases of different MACs that have no
entry yet add an entry for each lease that is live, in order. -/
theorem restoreLines_stateText (hl : ∀ l ∈ leases, Writable l)
    (hnodup : (leases.map Prod.fst).Nodup) (w : World)
    (hnew : ∀ l ∈ leases, w.hosts.get l.1 = none) (n : ℕ) :
    (((leases.map leaseLine).zipIdx n).foldl (restoreLine s) w).leases =
      w.leases ++ leases.filter s.keeps := by
  induction leases generalizing w n with
  | nil => simp
  | cons l leases ih =>
      have hl' := fun l' hmem => hl l' (List.mem_cons_of_mem _ hmem)
      have hnew' := fun l' hmem => hnew l' (List.mem_cons_of_mem _ hmem)
      obtain ⟨hnotin, hnodup'⟩ := List.nodup_cons.mp hnodup
      have hhosts := restoreLine_leaseLine (s := s) (hl l List.mem_cons_self) w n
      rw [List.map_cons, List.zipIdx_cons, List.foldl_cons, ih hl' hnodup']
      · rw [World.leases, hhosts]
        by_cases hlive : s.keeps l
        · rw [if_pos hlive, List.filter_cons_of_pos hlive,
            OrderedDict.entries_set_of_get_eq_none _ (hnew l List.mem_cons_self)]
          simp [World.leases, Startup.host]
        · rw [if_neg hlive, List.filter_cons_of_neg hlive]
          rfl
      · intro l' hmem
        have hne : l'.1 ≠ l.1 := fun heq => hnotin (heq ▸ List.mem_map_of_mem hmem)
        rw [hhosts]
        split
        · rw [OrderedDict.get_set_of_ne _ _ hne]
          exact hnew' l' hmem
        · exact hnew' l' hmem

/-- What every line of the file preserves, `restore` preserves. -/
theorem restore_invariant {I : World → Prop} {w : World}
    (hline : ∀ w line, I w → I (restoreLine s w line)) (hw : I w) : I (restore s w) := by
  rw [restore]
  split
  · exact hw
  · exact List.foldlRecOn (motive := I) _ _ hw fun w' h line _ => hline w' line h

/-- `restore` makes nothing but new entries. -/
theorem fresh_restore {w : World} (hfresh : ∀ mac h, w.hosts.get mac = some h → s.Fresh h)
    (mac : Text) (h : Host) (hget : (restore s w).hosts.get mac = some h) : s.Fresh h := by
  refine restore_invariant (I := fun w => ∀ mac h, w.hosts.get mac = some h → s.Fresh h)
    (fun w' line hfresh' m h' hget' => ?_) hfresh mac h hget
  rw [restoreLine] at hget'
  split at hget'
  · split at hget'
    · rcases OrderedDict.get_set_cases hget' with ⟨-, rfl⟩ | ⟨-, hget'⟩
      · exact ⟨rfl, line.2, rfl⟩
      · exact hfresh' m h' hget'
    · exact hfresh' m h' hget'
  · exact hfresh' m h' hget'

/-- `restore` leaves the kernel alone. -/
theorem restore_tables (s : Startup) (w : World) : (restore s w).tables = w.tables := by
  refine restore_invariant (I := fun w' => w'.tables = w.tables) (fun w' line h => ?_) rfl
  rw [← h, restoreLine]
  split
  · split <;> rfl
  · rfl

/-- A restart on a state file of leases keeps those that are live, in order, and makes new
entries for them. -/
theorem restore_reopen {w : World} (hl : ∀ l ∈ leases, Writable l)
    (hnodup : (leases.map Prod.fst).Nodup) (hstate : w.state.getD [] = stateText leases) :
    (restore s w.reopen).leases = leases.filter s.keeps ∧
      ∀ mac h, (restore s w.reopen).hosts.get mac = some h → s.Fresh h := by
  have hrestore : restore s w.reopen =
      (leases.map leaseLine).zipIdx.foldl (restoreLine s) w.reopen := by
    rw [← splitlines_stateText hl, ← hstate, restore]
    cases hw : w.reopen.state with
    | none =>
        rw [show w.state = none from hw]
        rfl
    | some text =>
        rw [show w.state = some text from hw]
        rfl
  constructor
  · rw [hrestore, restoreLines_stateText hl hnodup _ fun l _ => rfl]
    rfl
  · exact fresh_restore fun mac h hget => by cases hget

end Reading

/-! ### The state file along a run -/

section Methods

variable {env : Env} {iface mac ip4 : Text} {w : World}

/-- `install` leaves the state file alone. -/
theorem install_state {idx : ℕ} {nh : IPv6} :
    (install env mac idx ip4 nh w).state = w.state := by
  rw [install]
  split
  · rfl
  · split <;> rfl

/-- Following a next hop keeps the leases and the state file. -/
theorem follow_leases (env : Env) (idx : ℕ) (nh : Option IPv6) {h h' : Host}
    (hget : w.hosts.get mac = some h') (hiface : h'.iface = h.iface) (hip : h'.ip4 = h.ip4) :
    (follow env mac idx nh h w).leases = w.leases ∧
      (follow env mac idx nh h w).state = w.state := by
  cases nh with
  | none => exact ⟨rfl, rfl⟩
  | some n =>
      rw [follow]
      split
      · exact ⟨rfl, rfl⟩
      · refine ⟨?_, install_state⟩
        simp only [World.leases, install_hosts]
        exact OrderedDict.map_entries_set hget (by rw [hiface, hip])

/-- The leases after a lease line: the old ones and the new one. -/
theorem mem_leases_record {l : Text × Text × Text}
    (hl : l ∈ (record env iface mac ip4 w).leases) : l = (mac, iface, ip4) ∨ l ∈ w.leases := by
  have hset : ∃ h : Host, h.iface = iface ∧ h.ip4 = ip4 ∧
      (record env iface mac ip4 w).hosts = w.hosts.set mac h := by
    obtain ⟨h, -, hi, hip, he⟩ | ⟨w₁, -, he⟩ := record_cases env iface mac ip4 w
    · exact ⟨{ h with probeAt := some (env.monotonic .arming + GUA_PROBE_DELAY) }, hi, hip,
        by rw [he]⟩
    · exact ⟨⟨iface, ip4, none, some (env.monotonic .arming + GUA_PROBE_DELAY)⟩, rfl, rfl,
        by rw [he]⟩
  obtain ⟨h, rfl, rfl, hhosts⟩ := hset
  rw [World.leases, hhosts] at hl
  obtain ⟨e, he, rfl⟩ := List.mem_map.mp hl
  rcases eq_or_mem_of_mem_upsertFirst he with rfl | he
  · exact Or.inl rfl
  · exact Or.inr (List.mem_map_of_mem he)

/-- The leases after a release are among the old ones. -/
theorem mem_leases_of_pop (mac : Text) {l : Text × Text × Text}
    (hl : l ∈ (w.hosts.pop mac).entries.map fun e => (e.1, e.2.iface, e.2.ip4)) :
    l ∈ w.leases := by
  obtain ⟨e, he, rfl⟩ := List.mem_map.mp hl
  exact List.mem_map_of_mem (List.mem_of_mem_eraseP he)

end Methods

section Runs

variable [UnicodeTables] {env : Env} {iface mac ip4 : Text} {w w' : World}

/-- Evaluation keeps the leases and the state file. -/
theorem evaluate_leases (env : Env) (mac : Text) (w : World) :
    (evaluate env mac w).2.leases = w.leases ∧ (evaluate env mac w).2.state = w.state := by
  obtain ⟨e, he⟩ | ⟨he, -⟩ | ⟨h, idx, nh, gua, hh, -, -, he⟩ := evaluate_cases env mac w
  · rw [he]
    exact ⟨rfl, rfl⟩
  · rw [he]
    exact ⟨rfl, rfl⟩
  · have hsol := solicit_fst env mac nh gua h
    obtain ⟨hleases, hstate⟩ := follow_leases env idx nh
      (w := { w with
        hosts := w.hosts.set mac (solicit env mac nh gua h).1
        trace := (solicit env mac nh gua h).2 ++ w.trace })
      (OrderedDict.get_set_self _ _ _) (h := (solicit env mac nh gua h).1) rfl rfl
    rw [he]
    refine ⟨hleases.trans ?_, hstate⟩
    exact OrderedDict.map_entries_set hh (by rw [hsol])

/-- The state file has the leases of the table, and these can be written. -/
def Saved (w : World) : Prop :=
  (∀ l ∈ w.leases, Writable l) ∧ w.state.getD [] = stateText w.leases

/-- The fields of a line that is acted on. -/
theorem writable_of_readLine [LawfulLower] {line : Text}
    (h : readLine line = some (.lease iface mac ip4)) : Writable (mac, iface, ip4) := by
  have htoken : ∀ t ∈ split line, IsToken t := fun t ht => isWord_of_mem_tokens ht
  rw [readLine] at h
  split at h
  · rename_i a i m p rest hsplit
    rw [hsplit] at htoken
    split_ifs at h
    · obtain ⟨rfl, rfl, rfl⟩ := LeaseLine.lease.inj (Option.some.inj h)
      exact ⟨⟨LawfulLower.isToken_lower m (htoken m (by simp)), LawfulLower.lower_lower m⟩,
        htoken i (by simp), htoken p (by simp)⟩
    · cases h
  · cases h

/-- A table that was just written is saved if its leases can be written. -/
theorem saved_persist (hwrites : env.stateWriteFails = false)
    (hl : ∀ l ∈ w.leases, Writable l) : Saved (persist env w) := by
  have hleases : (persist env w).leases = w.leases := by
    rw [World.leases, persist_hosts, World.leases]
  refine ⟨fun l h => hl l (hleases ▸ h), ?_⟩
  rw [persist_state hwrites, hleases]
  rfl

/-- **One turn keeps the file up to date**: a lease line and a release write it, and
everything else leaves the leases alone. -/
theorem saved_step [LawfulLower] (hwrites : env.stateWriteFails = false) (ev : Event)
    (hs : Saved w) : Saved (step env ev w).2 := by
  refine step_invariant (I := Saved) ?_ ?_ ?_ hs
  · intro mac w hs
    obtain ⟨hleases, hstate⟩ := evaluate_leases env mac w
    rw [Saved, hleases, hstate]
    exact hs
  · intro line iface mac ip4 _ hread
    refine saved_persist hwrites fun l hl => ?_
    rcases mem_leases_record hl with rfl | hl
    · exact writable_of_readLine hread
    · exact hs.1 l hl
  · intro line mac ip4 _ _
    rw [onRelease]
    cases w.hosts.get mac with
    | none => exact hs
    | some h =>
        refine saved_persist hwrites fun l hl => hs.1 l (mem_leases_of_pop mac ?_)
        rwa [World.leases, withdraw_hosts] at hl

/-- A turn with any faults but that of a state write, or a change of the IPv4 tables by
others. A turn that raises ends the process. -/
def Writes (w : World) : Happening → World → Prop
  | .turn env ev, w' => env.stateWriteFails = false ∧ w' = (step env ev w).2
  | .others t, w' => w' = { w with tables := t }

/-- **The restart after a kill**: after every run of lines and sweeps from an empty table
and without a state file, whatever the netlink calls answer, a new process has the leases
of the old one that are in the lease file, or all of them if that cannot be read: one
entry for each MAC, in the old order, with nothing remembered as installed and the probe
armed. -/
theorem restore_of_run [LawfulLower] {es : List Happening} (hrun : Run Writes World.start es w)
    (s : Startup) :
    (restore s w.reopen).leases = w.leases.filter s.keeps ∧
      ∀ mac h, (restore s w.reopen).hosts.get mac = some h → s.Fresh h := by
  obtain ⟨hl, hstate⟩ := hrun.invariant (I := Saved)
    (fun w e w' hs hstep => by
      cases e with
      | turn env ev =>
          obtain ⟨hwrites, rfl⟩ := hstep
          exact saved_step hwrites ev hs
      | others t =>
          obtain rfl : w' = { w with tables := t } := hstep
          exact hs)
    ⟨fun l hl => (List.not_mem_nil hl).elim, rfl⟩
  refine restore_reopen hl ?_ hstate
  rw [World.leases, List.map_map]
  exact w.hosts.nodup

end Runs

/-- A third host, whose MAC comes in upper case. -/
def addC : Event := .line "add eth0 AA:00:00:00:00:03 10.0.0.3".toList

/-- Three hosts, after others have changed the routes. -/
def threeLeased : World := (step twoHosts addC crowded).2

/-- The lease file without the first host. -/
def withoutA : Startup where
  leases := some <|
    "1700000000 aa:00:00:00:00:03 10.0.0.3 c *\n1700000000 aa:00:00:00:00:02 10.0.0.2 b *\n".toList
  monotonic := fun k => k

/-- A new process has the leases of the other two, in the order in which they were made. -/
theorem restore_of_run_withoutA :
    (restore withoutA threeLeased.reopen).leases =
        [("aa:00:00:00:00:02".toList, "eth0".toList, "10.0.0.2".toList),
          ("aa:00:00:00:00:03".toList, "eth0".toList, "10.0.0.3".toList)] ∧
      ∀ mac h, (restore withoutA threeLeased.reopen).hosts.get mac = some h → withoutA.Fresh h := by
  have hrun : Run Writes World.start [.turn twoHosts addA, .turn twoHosts addB,
      .others crowded.tables, .turn twoHosts addC] threeLeased :=
    .cons ⟨rfl, rfl⟩ (.cons ⟨rfl, rfl⟩ (.cons rfl (Run.single ⟨rfl, rfl⟩)))
  obtain ⟨hleases, hfresh⟩ := restore_of_run hrun withoutA
  refine ⟨hleases.trans ?_, hfresh⟩
  decide

end V4WithV6Nh.Manager
