import V4WithV6Nh.ReturnRoutes

/-!
# Failed Route Requests

`install` swallows the error of a route request that failed, and `evaluate` then records
the next hop as installed all the same. The trace of a run says which requests were made
and how they were answered, so the next hop of the last request that succeeded for a
lease, `lastInstalled`, can be compared with the remembered one (`Remembers`).

## Main results

* `remembers_evaluate_iff`: an evaluation keeps the memory of a host right exactly when
  it makes no request for it that fails.
* `always_remembers_iff`: the runs in which the memory of every host is right throughout
  are the runs in which no route request that is made fails.
* `failed_install_not_retried`: after a failure the next sweep makes no request.
-/

namespace V4WithV6Nh.Manager

/-! ### The ledger of successful requests -/

/-- What an effect says about the installed next hop of a MAC: a new entry has none, and
a request that succeeded installs its next hop. -/
def ledger (mac : Text) : Effect → Option (Option IPv6)
  | .tracked m _ _ => if m = mac then some none else none
  | .replaced m _ nh none => if m = mac then some (some nh) else none
  | _ => none

/-- The next hop of the last request that succeeded for the current lease of `mac`, given
the effects newest first. -/
def lastInstalled (mac : Text) (trace : List Effect) : Option IPv6 :=
  (trace.findSome? (ledger mac)).join

/-- The remembered next hop of `mac` is the one last installed for its lease. -/
def Remembers (mac : Text) (w : World) : Prop :=
  ∀ h, w.hosts.get mac = some h → h.nh = lastInstalled mac w.trace

/-- The entry of `mac` and its ledger are the same in `w` and `w'`. -/
def SameLedger (mac : Text) (w w' : World) : Prop :=
  w'.hosts.get mac = w.hosts.get mac ∧
    lastInstalled mac w'.trace = lastInstalled mac w.trace

theorem SameLedger.refl (mac : Text) (w : World) : SameLedger mac w w := ⟨rfl, rfl⟩

theorem SameLedger.trans {mac : Text} {w w' w'' : World} (h : SameLedger mac w w')
    (h' : SameLedger mac w' w'') : SameLedger mac w w'' :=
  ⟨h'.1.trans h.1, h'.2.trans h.2⟩

theorem SameLedger.remembers_iff {mac : Text} {w w' : World} (h : SameLedger mac w w') :
    Remembers mac w' ↔ Remembers mac w := by
  rw [Remembers, Remembers, h.1, h.2]

/-- An effect that the ledger of `mac` skips. -/
theorem lastInstalled_cons_of_none {mac : Text} {e : Effect} {trace : List Effect}
    (he : ledger mac e = none) : lastInstalled mac (e :: trace) = lastInstalled mac trace := by
  rw [lastInstalled, List.findSome?_cons, he]
  rfl

/-- An effect that the ledger of `mac` records. -/
theorem lastInstalled_cons_of_some {mac : Text} {e : Effect} {nh : Option IPv6}
    {trace : List Effect} (he : ledger mac e = some nh) :
    lastInstalled mac (e :: trace) = nh := by
  rw [lastInstalled, List.findSome?_cons, he]
  rfl

/-- The solicitation step is not in any ledger. -/
theorem lastInstalled_solicit (env : Env) (m mac : Text) (nh gua : Option IPv6) (h : Host)
    (trace : List Effect) :
    lastInstalled m ((solicit env mac nh gua h).2 ++ trace) = lastInstalled m trace := by
  unfold solicit
  cases gua with
  | none => rfl
  | some g =>
      simp only
      split
      · rfl
      · split
        · rfl
        · split
          · exact lastInstalled_cons_of_none rfl
          · rfl

section Ledger

variable {env : Env} {iface mac mac' ip4 : Text} {w : World} {h : Host}

/-- Following a next hop is in the ledger of one MAC. -/
theorem lastInstalled_follow_of_ne {idx : ℕ} {nh : Option IPv6} (hne : mac' ≠ mac) :
    lastInstalled mac' (follow env mac idx nh h w).trace = lastInstalled mac' w.trace := by
  cases nh with
  | none => rfl
  | some n =>
      simp only [follow]
      split
      · rfl
      · rw [install_trace]
        refine lastInstalled_cons_of_none ?_
        cases env.fault (.routeReplace mac) with
        | none => exact if_neg fun heq => hne heq.symm
        | some e => rfl

/-- A withdrawal is in no ledger. -/
theorem lastInstalled_withdraw :
    lastInstalled mac (withdraw env ip4 w).trace = lastInstalled mac w.trace := by
  rw [withdraw]
  split
  · exact lastInstalled_cons_of_none rfl
  · exact lastInstalled_cons_of_none rfl

/-- The table update of a lease line is right about its own MAC. -/
theorem remembers_record (hr : Remembers mac w) :
    Remembers mac (record env iface mac ip4 w) := by
  obtain ⟨h, hh, -, -, he⟩ | ⟨w₁, -, he⟩ := record_cases env iface mac ip4 w
  · rw [he]
    intro h' hh'
    obtain rfl := OrderedDict.eq_of_get_set_self hh'
    exact (hr h hh).trans (lastInstalled_cons_of_none rfl).symm
  · rw [he]
    intro h' hh'
    obtain rfl := OrderedDict.eq_of_get_set_self hh'
    have htracked : ledger mac (.tracked mac iface ip4) = some none := if_pos rfl
    rw [lastInstalled_cons_of_none rfl, lastInstalled_cons_of_some htracked]

/-- The table update of a lease line is in the ledger of its own MAC only. -/
theorem sameLedger_record (hne : mac' ≠ mac) :
    SameLedger mac' w (record env iface mac ip4 w) := by
  refine ⟨record_get_of_ne hne, ?_⟩
  obtain ⟨h, -, -, -, he⟩ | ⟨w₁, hw₁, he⟩ := record_cases env iface mac ip4 w
  · rw [he]
    exact lastInstalled_cons_of_none rfl
  · have hskip : ledger mac' (.tracked mac iface ip4) = none :=
      if_neg fun heq => hne heq.symm
    rw [he, lastInstalled_cons_of_none rfl, lastInstalled_cons_of_none hskip]
    obtain ⟨-, rfl⟩ | ⟨h, -, rfl⟩ := hw₁
    · rfl
    · exact lastInstalled_withdraw

/-- Writing the state file is in no ledger. -/
theorem sameLedger_persist (mac : Text) : SameLedger mac w (persist env w) :=
  ⟨by rw [persist_hosts], by rw [persist_trace]⟩

/-- A release is in no ledger, and keeps the entries of other MACs. -/
theorem sameLedger_onRelease (hne : mac' ≠ mac) :
    SameLedger mac' w (onRelease env mac ip4 w) := by
  refine ⟨onRelease_get_of_ne hne, ?_⟩
  cases hh : w.hosts.get mac with
  | none => rw [onRelease_of_get_eq_none hh]
  | some h =>
      rw [onRelease, hh]
      simp only [persist_trace]
      exact lastInstalled_withdraw (w := { w with hosts := w.hosts.pop mac })

end Ledger

/-! ### Requests -/

section Requests

variable [UnicodeTables] {env : Env} {mac mac' : Text} {w : World} {h : Host}

/-- Evaluating `mac` with the entry `h` requests a route via `n`: that is the best next
hop, and not the remembered one. -/
def Requests (env : Env) (mac : Text) (h : Host) (n : IPv6) : Prop :=
  ∃ idx gua, linkLookup env.links h.iface = some idx ∧
    bestNexthop env idx mac = .ok (some n, gua) ∧ h.nh ≠ some n

/-- Evaluating `mac` with the entry `h` makes a request that fails. -/
def FailsFor (env : Env) (mac : Text) (h : Host) : Prop :=
  (∃ n, Requests env mac h n) ∧ env.fault (.routeReplace mac) ≠ none

/-- Evaluating one MAC leaves the entries and the ledgers of the others alone. -/
theorem sameLedger_evaluate (env : Env) (w : World) (hne : mac' ≠ mac) :
    SameLedger mac' w (evaluate env mac w).2 := by
  refine ⟨evaluate_get_of_ne hne, ?_⟩
  obtain ⟨e, he⟩ | ⟨he, -⟩ | ⟨h, idx, nh, gua, -, -, -, he⟩ := evaluate_cases env mac w
  · rw [he]
  · rw [he]
  · rw [he, lastInstalled_follow_of_ne hne]
    exact lastInstalled_solicit env mac' mac nh gua h w.trace

/-- An evaluation that requests nothing keeps the remembered next hop and the ledger. -/
theorem evaluate_of_not_requests (hh : w.hosts.get mac = some h)
    (hreq : ¬ ∃ n, Requests env mac h n) :
    lastInstalled mac (evaluate env mac w).2.trace = lastInstalled mac w.trace ∧
      ∃ h', (evaluate env mac w).2.hosts.get mac = some h' ∧ h'.nh = h.nh := by
  obtain ⟨e, he⟩ | ⟨he, -⟩ | ⟨h₀, idx, nh, gua, hh₀, hidx, hbest, he⟩ :=
    evaluate_cases env mac w
  · rw [he]
    exact ⟨rfl, h, hh, rfl⟩
  · rw [he]
    exact ⟨rfl, h, hh, rfl⟩
  · obtain rfl : h = h₀ := Option.some.inj (hh.symm.trans hh₀)
    have hnh : (solicit env mac nh gua h).1.nh = h.nh := by rw [solicit_fst]
    have hfollow : ∀ w', follow env mac idx nh (solicit env mac nh gua h).1 w' = w' := by
      intro w'
      cases nh with
      | none => rfl
      | some n =>
          have hsame : h.nh = some n :=
            not_not.mp fun hne => hreq ⟨n, idx, gua, hidx, hbest, hne⟩
          simp only [follow, hnh, if_pos hsame]
    rw [he, hfollow]
    exact ⟨lastInstalled_solicit env mac mac nh gua h w.trace, _,
      OrderedDict.get_set_self _ _ _, hnh⟩

/-- An evaluation that requests a route records its next hop, however the request is
answered; the ledger records it only if the request succeeds. -/
theorem evaluate_of_requests {n : IPv6} (hg : Guarded env)
    (hh : w.hosts.get mac = some h) (hreq : Requests env mac h n) :
    lastInstalled mac (evaluate env mac w).2.trace =
        (if env.fault (.routeReplace mac) = none then some n
          else lastInstalled mac w.trace) ∧
      ∃ h', (evaluate env mac w).2.hosts.get mac = some h' ∧ h'.nh = some n := by
  obtain ⟨idx, gua, hidx, hbest, hne⟩ := hreq
  have hnh : (solicit env mac (some n) gua h).1.nh = h.nh := by rw [solicit_fst]
  rw [evaluate_of_best hg hh hidx hbest]
  simp only [follow, hnh, if_neg hne, install_trace]
  refine ⟨?_, _, OrderedDict.get_set_self _ _ _, rfl⟩
  cases env.fault (.routeReplace mac) with
  | none =>
      have hrec : ledger mac (.replaced mac (solicit env mac (some n) gua h).1.ip4 n none) =
          some (some n) := if_pos rfl
      rw [if_pos rfl, lastInstalled_cons_of_some hrec]
  | some e =>
      rw [if_neg (by simp), lastInstalled_cons_of_none rfl, lastInstalled_solicit]

/-- **One evaluation keeps the memory right exactly when no request it makes fails.** -/
theorem remembers_evaluate_iff (hg : Guarded env) (hh : w.hosts.get mac = some h)
    (hr : Remembers mac w) :
    Remembers mac (evaluate env mac w).2 ↔ ¬ FailsFor env mac h := by
  by_cases hreq : ∃ n, Requests env mac h n
  · obtain ⟨n, hn⟩ := hreq
    obtain ⟨htrace, h', hh', hnh⟩ := evaluate_of_requests hg hh hn
    have hne : h.nh ≠ some n := hn.choose_spec.choose_spec.2.2
    rw [hr h hh] at hne
    constructor
    · rintro hr' ⟨-, hfault⟩
      have heq := hr' h' hh'
      rw [hnh, htrace, if_neg hfault] at heq
      exact hne heq.symm
    · intro hok h'' hh''
      obtain rfl : h' = h'' := Option.some.inj (hh'.symm.trans hh'')
      have hfault : env.fault (.routeReplace mac) = none :=
        not_not.mp fun hfault => hok ⟨⟨n, hn⟩, hfault⟩
      rw [hnh, htrace, if_pos hfault]
  · obtain ⟨htrace, h', hh', hnh⟩ := evaluate_of_not_requests hh hreq
    constructor
    · exact fun _ hfails => hreq hfails.1
    · intro _ h'' hh''
      obtain rfl : h' = h'' := Option.some.inj (hh'.symm.trans hh'')
      rw [hnh, htrace, hr h hh]

/-- The memory of a MAC that a sweep does not name stays as right as it was. -/
theorem sameLedger_evaluateEach (env : Env) {macs : List Text} (hmac : mac ∉ macs) :
    SameLedger mac w (evaluateEach env macs w).2 := by
  refine evaluateEach_invariant (I := SameLedger mac w) (fun m hm w' hsame => ?_)
    (SameLedger.refl _ _)
  have hne : mac ≠ m := fun heq => hmac (heq ▸ hm)
  exact hsame.trans (sameLedger_evaluate env w' hne)

/-- The same for a sweep that names the host once. -/
theorem remembers_evaluateEach_iff (hg : Guarded env) {macs : List Text}
    (hnodup : macs.Nodup) (hmac : mac ∈ macs) (hh : w.hosts.get mac = some h)
    (hr : Remembers mac w) :
    Remembers mac (evaluateEach env macs w).2 ↔ ¬ FailsFor env mac h := by
  obtain ⟨before, after, hbefore, hafter, hsweep⟩ :=
    evaluateEach_once (evaluateEach_ok hg macs w) hnodup hmac
  have hsame := sameLedger_evaluateEach (w := w) env hbefore
  rw [hsweep, (sameLedger_evaluateEach env hafter).remembers_iff]
  exact remembers_evaluate_iff hg (hsame.1.trans hh) (hsame.remembers_iff.mpr hr)

end Requests

/-! ### Runs with failing requests -/

/-- No netlink call but a route replace fails. -/
def OnlyReplaceFails (env : Env) : Prop :=
  ∀ c, (∀ mac, c ≠ .routeReplace mac) → env.fault c = none

theorem OnlyReplaceFails.guarded {env : Env} (h : OnlyReplaceFails env) : Guarded env :=
  fun mac => ⟨h (.linkLookup mac) nofun, h (.getRoutes mac) nofun⟩

section Runs

variable [UnicodeTables] {ifindex : Text → Option ℕ} {env : Env} {w w' : World}

/-- The memory of every host is right. -/
def AllRemember (w : World) : Prop := ∀ mac, Remembers mac w

/-- A turn with stable interface indexes and distinct addresses, in which only route
requests may fail. -/
def RetryTurn (ifindex : Text → Option ℕ) (w : World) (e : Env × Event) (w' : World) :
    Prop :=
  OnlyReplaceFails e.1 ∧ Stable ifindex e.1 ∧ NoSharing w (.turn e.1 e.2) ∧
    step e.1 e.2 w = (.ok (), w')

/-- The turn makes a route request that fails: for a tracked host in a sweep, or for the
entry that a lease line makes or finds. -/
def FailsAt (w : World) (e : Env × Event) : Prop :=
  match e.2 with
  | .sweep => ∃ mac h, w.hosts.get mac = some h ∧ FailsFor e.1 mac h
  | .line line => ∃ iface mac ip4, readLine line = some (.lease iface mac ip4) ∧
      FailsFor e.1 mac (leaseEntry e.1 iface mac ip4 w).1

/-- A sweep keeps the memory of every host right exactly when no request it makes
fails. -/
theorem allRemember_sweep_iff (hg : Guarded env) (hr : AllRemember w) :
    AllRemember (step env .sweep w).2 ↔ ¬ FailsAt w (env, .sweep) := by
  have hhost : ∀ mac h, w.hosts.get mac = some h →
      (Remembers mac (step env .sweep w).2 ↔ ¬ FailsFor env mac h) := fun mac h hh =>
    remembers_evaluateEach_iff hg w.hosts.nodup (OrderedDict.mem_keys_iff.mpr ⟨h, hh⟩) hh
      (hr mac)
  constructor
  · rintro hall ⟨mac, h, hh, hfails⟩
    exact (hhost mac h hh).mp (hall mac) hfails
  · intro hok mac
    cases hh : w.hosts.get mac with
    | none =>
        have hsame : SameLedger mac w (step env .sweep w).2 :=
          sameLedger_evaluateEach env (OrderedDict.get_eq_none_iff.mp hh)
        exact hsame.remembers_iff.mpr (hr mac)
    | some h => exact (hhost mac h hh).mpr fun hfails => hok ⟨mac, h, hh, hfails⟩

/-- A lease line keeps the memory of every host right exactly when it makes no request
that fails. -/
theorem allRemember_onLease_iff {iface mac ip4 : Text} (hg : Guarded env)
    (hr : AllRemember w) :
    AllRemember (onLease env iface mac ip4 w).2 ↔
      ¬ FailsFor env mac (leaseEntry env iface mac ip4 w).1 := by
  have hrecord : ∀ m, Remembers m (persist env (record env iface mac ip4 w)) := by
    intro m
    rw [(sameLedger_persist m).remembers_iff]
    by_cases hm : m = mac
    · subst hm
      exact remembers_record (hr m)
    · exact (sameLedger_record hm).remembers_iff.mpr (hr m)
  have hget : (persist env (record env iface mac ip4 w)).hosts.get mac =
      some { (leaseEntry env iface mac ip4 w).1 with
        probeAt := some (env.monotonic .arming + GUA_PROBE_DELAY) } := by
    rw [persist_hosts]
    exact OrderedDict.get_set_self _ _ _
  have hself := remembers_evaluate_iff hg hget (hrecord mac)
  constructor
  · exact fun hall => hself.mp (hall mac)
  · intro hok m
    by_cases hm : m = mac
    · exact hm ▸ hself.mpr hok
    · exact (sameLedger_evaluate env _ hm).remembers_iff.mpr (hrecord m)

/-- **One turn keeps the memory right exactly when no route request it makes fails.** -/
theorem allRemember_step_iff {e : Env × Event} (hr : AllRemember w)
    (hturn : RetryTurn ifindex w e w') : AllRemember w' ↔ ¬ FailsAt w e := by
  obtain ⟨env, ev⟩ := e
  obtain ⟨honly, -, -, hstep⟩ := hturn
  have hg : Guarded env := honly.guarded
  obtain rfl : (step env ev w).2 = w' := by rw [hstep]
  cases ev with
  | sweep => exact allRemember_sweep_iff hg hr
  | line line =>
      simp only [step, handleLine_eq, FailsAt]
      cases hread : readLine line with
      | none =>
          refine ⟨fun _ => ?_, fun _ => hr⟩
          rintro ⟨_, _, _, h, -⟩
          cases h
      | some l =>
          cases l with
          | release mac ip4 =>
              constructor
              · rintro - ⟨_, _, _, h, -⟩
                cases h
              · intro _ m
                by_cases hm : m = mac
                · intro h hh
                  rw [hm, onRelease_get_self] at hh
                  cases hh
                · have hsame : SameLedger m w (onRelease env mac ip4 w) :=
                    sameLedger_onRelease hm
                  exact hsame.remembers_iff.mpr (hr m)
          | lease iface mac ip4 =>
              simp only
              rw [allRemember_onLease_iff hg hr, not_iff_not]
              constructor
              · exact fun hfails => ⟨iface, mac, ip4, rfl, hfails⟩
              · rintro ⟨iface', mac', ip4', heq, hfails⟩
                obtain ⟨rfl, rfl, rfl⟩ := LeaseLine.lease.inj (Option.some.inj heq)
                exact hfails

/-- **Memory along every run**: the runs in which every host's remembered next hop is,
after every turn, the one last installed for its lease are the runs in which no route
request that a turn makes fails. -/
theorem always_remembers_iff {es : List (Env × Event)} (hstart : AllRemember w) :
    Run (fun w e w' => RetryTurn ifindex w e w' ∧ AllRemember w') w es w' ↔
      Run (fun w e w' => RetryTurn ifindex w e w' ∧ ¬ FailsAt w e) w es w' :=
  Run.always_iff (R := RetryTurn ifindex) (I := AllRemember)
    (J := fun _ _ w' => AllRemember w') (fun _ _ _ _ _ h => h)
    (fun _ _ _ => allRemember_step_iff) hstart

end Runs

theorem allRemember_start : AllRemember World.start := by
  intro mac h hh
  cases hh

/-- `twoHosts` with the first host's route request answered by EINVAL. -/
def refusing : Env :=
  { twoHosts with
    fault := fun c =>
      if c = .routeReplace "aa:00:00:00:00:01".toList then some ⟨22⟩ else none }

/-- Any other request succeeds. -/
theorem fault_refusing {mac : Text} (hmac : mac ≠ "aa:00:00:00:00:01".toList) :
    refusing.fault (.routeReplace mac) = none :=
  if_neg fun heq => hmac (Call.routeReplace.inj heq)

theorem onlyReplaceFails_refusing : OnlyReplaceFails refusing := fun _ hc => if_neg (hc _)

/-- The second host is leased an address after the first one. -/
def bothServed : World := (step refusing addB (step twoHosts addA World.start).2).2

/-- A sweep after that. -/
def bothSwept : World := (step refusing .sweep bothServed).2

/-- **Requests that would be refused are not made**: the route of the first host is in place when
the second one comes, also for a sweep, and its address goes to the second host in the end. -/
theorem always_remembers_refusing :
    Run (fun w e w' => RetryTurn (linkLookup twoHosts.links) w e w' ∧ AllRemember w')
      World.start
      [(twoHosts, addA), (refusing, addB), (refusing, .sweep), (twoHosts, delA), (twoHosts, oldB)]
      (step twoHosts oldB (step twoHosts delA bothSwept).2).2 := by
  have hturn : ∀ {env ev w}, OnlyReplaceFails env → Stable (linkLookup twoHosts.links) env →
      NoSharing w (.turn env ev) →
        RetryTurn (linkLookup twoHosts.links) w (env, ev) (step env ev w).2 :=
    fun honly hs hfree => ⟨honly, hs, hfree, Prod.ext (step_ok honly.guarded _ _) rfl⟩
  have hcalm : ∀ w ev, ¬ FailsAt w (twoHosts, ev) := by
    intro w ev hfails
    cases ev with
    | sweep =>
        obtain ⟨_, _, _, -, hfault⟩ := hfails
        exact hfault rfl
    | line line =>
        obtain ⟨_, _, _, -, -, hfault⟩ := hfails
        exact hfault rfl
  have haddB : NoSharing (step twoHosts addA World.start).2 (.turn refusing addB) :=
    noSharing_of_entries readLine_addB (by decide)
  have hserved : ¬ FailsAt (step twoHosts addA World.start).2 (refusing, addB) := by
    rintro ⟨iface, mac, ip4, hread, -, hfault⟩
    obtain ⟨-, rfl, -⟩ := LeaseLine.lease.inj (Option.some.inj (readLine_addB.symm.trans hread))
    exact hfault (fault_refusing (by decide))
  have hswept : ¬ FailsAt bothServed (refusing, .sweep) := by
    rintro ⟨mac, h, hh, ⟨n, idx, gua, hidx, hbest, hne⟩, hfault⟩
    -- the request would be for the first host, which has its best next hop
    obtain rfl : mac = "aa:00:00:00:00:01".toList := by
      by_contra hmac
      exact hfault (fault_refusing hmac)
    have hget : bothServed.hosts.get "aa:00:00:00:00:01".toList = some hostA := by decide
    obtain rfl := Option.some.inj (hget.symm.trans hh)
    obtain rfl : 3 = idx := Option.some.inj hidx
    have hnh : bestNexthop refusing 3 "aa:00:00:00:00:01".toList = .ok (some nhA, none) := rfl
    obtain ⟨hn, -⟩ := Prod.mk.inj (Except.ok.inj (hnh.symm.trans hbest))
    exact hne hn
  have hdelA : NoSharing bothSwept (.turn twoHosts delA) := by
    intro iface mac ip4 hread
    cases hread
  have holdB : NoSharing (step twoHosts delA bothSwept).2 (.turn twoHosts oldB) :=
    noSharing_of_entries readLine_oldB (by decide)
  have hquiet : OnlyReplaceFails twoHosts := fun _ _ => rfl
  refine (always_remembers_iff allRemember_start).mpr
    (.cons ⟨hturn hquiet (fun _ => rfl) noSharing_addA, hcalm _ _⟩ ?_)
  refine .cons ⟨hturn onlyReplaceFails_refusing (fun _ => rfl) haddB, hserved⟩ ?_
  refine .cons ⟨hturn onlyReplaceFails_refusing (fun _ => rfl) trivial, hswept⟩ ?_
  exact .cons ⟨hturn hquiet (fun _ => rfl) hdelA, hcalm _ _⟩
    (Run.single ⟨hturn hquiet (fun _ => rfl) holdB, hcalm _ _⟩)

/-- **A failed install is not tried again**: after a refused route request the daemon
remembers the next hop as installed, and the next sweep makes no request although all
calls would succeed and no route is there. -/
theorem failed_install_not_retried :
    ∃ (ifindex : Text → Option ℕ) (es : List (Env × Event)) (w : World),
      Run (RetryTurn ifindex) World.start es w ∧ ¬ AllRemember w ∧ NoFaults twoHosts ∧
      (step twoHosts .sweep w).2.trace = w.trace ∧ w.tables.fib = [] := by
  have honly : OnlyReplaceFails refusing := onlyReplaceFails_refusing
  have hrun : Run (RetryTurn (linkLookup twoHosts.links)) World.start [(refusing, addA)]
      (step refusing addA World.start).2 :=
    Run.single ⟨honly, fun _ => rfl, noSharing_addA,
      Prod.ext (step_ok honly.guarded addA World.start) rfl⟩
  have hget : (step refusing addA World.start).2.hosts.get "aa:00:00:00:00:01".toList =
      some hostA := by decide
  have hlast : lastInstalled "aa:00:00:00:00:01".toList
      (step refusing addA World.start).2.trace = none := by decide
  refine ⟨_, _, _, hrun, fun hall => ?_, fun _ => rfl, by decide, by decide⟩
  have heq := hall _ _ hget
  rw [hlast] at heq
  cases heq

end V4WithV6Nh.Manager
