import V4WithV6Nh.ReturnRoutes

/-!
# The Lease Notifier and the Line Parser

`v4gw-lease-notify.sh` prints the four fields of an event with single spaces between
them, and `handle_line` splits the line on runs of whitespace. When dnsmasq does not set
DNSMASQ_INTERFACE the notifier prints an empty second field, the line has three tokens,
and `handle_line` ignores it: right for `add` and `old`, which need an interface, but not
for `del`, which does not.

## Main results

* `split_notify`, `split_notify_empty`: the tokens of the line the notifier prints.
* `understood_iff`: the daemon does what an event asks for exactly when the event is not
  a `del` without an interface.
-/

namespace V4WithV6Nh.Manager

/-- The line that `v4gw-lease-notify.sh` writes to the FIFO; `${DNSMASQ_INTERFACE:-}` is
empty if dnsmasq leaves the variable unset. -/
def notify (dnsmasqInterface : Option Text) (action mac ip4 : Text) : Text :=
  action ++ ' ' :: dnsmasqInterface.getD [] ++ ' ' :: mac ++ ' ' :: ip4 ++ ['\n']

/-- The line that `serve` hands on: `buf` up to its first newline. -/
def firstLine (buf : Text) : Text := buf.takeWhile fun c => c != '\n'

/-- A name the notifier can forward: a token, or nothing. -/
def Forwardable (dnsmasqInterface : Option Text) : Prop :=
  dnsmasqInterface.getD [] = [] ∨ IsToken (dnsmasqInterface.getD [])

/-- The actions dnsmasq reports. -/
def IsAction (action : Text) : Prop :=
  action = "add".toList ∨ action = "old".toList ∨ action = "del".toList

section Fields

variable {iface : Option Text} {action mac ip4 : Text}

theorem IsAction.isToken (h : IsAction action) : IsToken action := by
  rcases h with rfl | rfl | rfl
  · exact isWord_of_all rfl
  · exact isWord_of_all rfl
  · exact isWord_of_all rfl

/-- No token contains a newline. -/
theorem ne_newline_of_isToken {t : Text} (ht : IsToken t) : ∀ c ∈ t, (c != '\n') = true := by
  intro c hc
  have hspace : isSpace '\n' = true := by decide
  have hne : c ≠ '\n' := by
    rintro rfl
    rw [ht.2 _ hc] at hspace
    cases hspace
  exact bne_iff_ne.mpr hne

/-- The newline the notifier prints is the first of its line. -/
theorem firstLine_notify (hi : Forwardable iface) (ha : IsToken action) (hm : IsToken mac)
    (hip : IsToken ip4) : firstLine (notify iface action mac ip4) =
      action ++ ' ' :: iface.getD [] ++ ' ' :: mac ++ ' ' :: ip4 := by
  have hfield : ∀ c ∈ iface.getD [], (c != '\n') = true := by
    rcases hi with hi | hi
    · rw [hi]
      exact nofun
    · exact ne_newline_of_isToken hi
  have hall : ∀ c ∈ action ++ ' ' :: iface.getD [] ++ ' ' :: mac ++ ' ' :: ip4,
      (c != '\n') = true := by
    intro c hc
    simp only [List.mem_append, List.mem_cons] at hc
    rcases hc with ((hc | rfl | hc) | rfl | hc) | rfl | hc
    · exact ne_newline_of_isToken ha c hc
    · rfl
    · exact hfield c hc
    · rfl
    · exact ne_newline_of_isToken hm c hc
    · rfl
    · exact ne_newline_of_isToken hip c hc
  rw [firstLine, notify, List.takeWhile_append_of_pos hall]
  simp

/-- A line with an interface has its four fields as tokens. -/
theorem split_notify (hi : IsToken (iface.getD [])) (ha : IsToken action)
    (hm : IsToken mac) (hip : IsToken ip4) :
    split (firstLine (notify iface action mac ip4)) =
      [action, iface.getD [], mac, ip4] := by
  have hblank : isSpace ' ' = true := by decide
  rw [firstLine_notify (Or.inr hi) ha hm hip, split]
  simp only [List.append_assoc, List.cons_append]
  rw [tokens_cons ha hblank, tokens_cons hi hblank, tokens_cons hm hblank, tokens_word hip]

/-- A line without an interface has three tokens. -/
theorem split_notify_empty (hi : iface.getD [] = []) (ha : IsToken action)
    (hm : IsToken mac) (hip : IsToken ip4) :
    split (firstLine (notify iface action mac ip4)) = [action, mac, ip4] := by
  have hblank : isSpace ' ' = true := by decide
  rw [firstLine_notify (Or.inl hi) ha hm hip, split, hi]
  simp only [List.append_assoc, List.cons_append, List.nil_append]
  rw [tokens_cons ha hblank, tokens_sep_cons hblank, tokens_cons hm hblank, tokens_word hip]

end Fields

section Events

variable [UnicodeTables] {iface : Option Text} {action mac ip4 : Text}

/-- What an event asks for: a lease needs an interface to be recorded, a release does
not. -/
def asked (env : Env) (iface : Option Text) (action mac ip4 : Text) (w : World) : Outcome :=
  if action = "del".toList then (.ok (), onRelease env (UnicodeTables.lower mac) ip4 w)
  else if iface.getD [] = [] then (.ok (), w)
  else onLease env (iface.getD []) (UnicodeTables.lower mac) ip4 w

/-- The daemon does what the event asks for in every state; in particular a `del` of a
tracked MAC requests the deletion of its route, and the route is gone unless the request
fails. -/
def Understood (iface : Option Text) (action mac ip4 : Text) : Prop :=
  ∀ env w,
    handleLine env (firstLine (notify iface action mac ip4)) w =
        asked env iface action mac ip4 w ∧
      (action = "del".toList → ∀ h, w.hosts.get (UnicodeTables.lower mac) = some h →
        let w' := (handleLine env (firstLine (notify iface action mac ip4)) w).2
        (∃ result, w'.trace = .withdrew h.ip4 result :: w.trace) ∧
          (env.fault .routeDel = none →
            w'.tables.fib = w.tables.fib.eraseP (hostRoutes h.ip4).accepts))

/-- **The two ends agree exactly on the events that are not a `del` without an
interface.** -/
theorem understood_iff (ha : IsAction action) (hi : Forwardable iface) (hm : IsToken mac)
    (hip : IsToken ip4) :
    Understood iface action mac ip4 ↔ ¬ (action = "del".toList ∧ iface.getD [] = []) := by
  constructor
  · rintro hun ⟨rfl, hnone⟩
    -- a tracked MAC, whose release the daemon ignores
    have htracked : (World.start.hosts.set (UnicodeTables.lower mac) hostA).get
        (UnicodeTables.lower mac) = some hostA := OrderedDict.get_set_self _ _ _
    obtain ⟨⟨result, htrace⟩, -⟩ := (hun twoHosts
      { World.start with hosts := World.start.hosts.set (UnicodeTables.lower mac) hostA }).2
        rfl hostA htracked
    rw [handleLine, split_notify_empty hnone ha.isToken hm hip] at htrace
    cases htrace
  · intro hne env w
    have hasked : handleLine env (firstLine (notify iface action mac ip4)) w =
        asked env iface action mac ip4 w := by
      rcases hi with hi | hi
      · have hdel : action ≠ "del".toList := fun h => hne ⟨h, hi⟩
        rw [handleLine, split_notify_empty hi ha.isToken hm hip, asked, if_neg hdel,
          if_pos hi]
      · rw [handleLine, split_notify hi ha.isToken hm hip, asked]
        rcases ha with rfl | rfl | rfl
        · rw [if_neg (by decide), if_neg hi.1]
          rfl
        · rw [if_neg (by decide), if_neg hi.1]
          rfl
        · rfl
    refine ⟨hasked, ?_⟩
    rintro hdel h hh
    rw [hasked, asked, if_pos hdel]
    exact onRelease_withdraws ip4 hh

end Events

/-- A lease announced with its interface. -/
theorem understood_add : Understood (some "eth0".toList) "add".toList
    "aa:00:00:00:00:01".toList "10.0.0.1".toList :=
  (understood_iff (Or.inl rfl) (Or.inr (isWord_of_all rfl)) (isWord_of_all rfl)
    (isWord_of_all rfl)).mpr (by decide)

/-- **A release without an interface is lost**: after `addA`, the line the notifier prints
for the `del` of that lease without DNSMASQ_INTERFACE changes nothing, and the route
stays. -/
theorem unnamed_release_ignored :
    let mac := "aa:00:00:00:00:01".toList
    let line := firstLine (notify none "del".toList mac "10.0.0.1".toList)
    let w := (step twoHosts addA World.start).2
    ¬ Understood none "del".toList mac "10.0.0.1".toList ∧
      w.hosts.get mac = some hostA ∧ handleLine twoHosts line w = (.ok (), w) ∧
      hostRoute hostA.ip4 3 nhA ∈ w.tables.fib := by
  intro mac line w
  have hline : handleLine twoHosts line w = (.ok (), w) := by
    have hfields : split line = ["del".toList, mac, "10.0.0.1".toList] := by decide
    rw [handleLine, hfields]
  have hget : w.hosts.get mac = some hostA := by decide
  refine ⟨fun hun => ?_, hget, hline, by decide⟩
  obtain ⟨⟨result, htrace⟩, -⟩ := (hun twoHosts w).2 rfl hostA hget
  rw [hline] at htrace
  exact List.cons_ne_self _ _ htrace.symm

end V4WithV6Nh.Manager
