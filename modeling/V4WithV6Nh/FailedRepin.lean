import V4WithV6Nh.PinRemoval

/-!
# A Failed Re-pin of the Windows Service

To pin another MAC the service deletes the entry for the sentinel and creates a new one, and
its comment has it that the entry is replaced "atomically enough". Where the creation fails
after the deletion, nothing is left of the old entry, and the flag that says that an entry is
installed stays set.

## Main results

* `install_kept_iff`: a failed installation leaves the entry alone exactly when the deletion
  failed as well, or there was no entry.
* `flag_right_iff`: the histories in which a set flag always means an entry in the kernel, or
  one that others removed, are those without a pass that deletes the entry and does not
  create it again.
-/

namespace V4WithV6Nh.WindowsDaemon

/-- What `install` asks of the kernel: a deletion, a creation, and a change if there is an
entry after all. -/
def swap (I : IpHelper) (calls : Calls) (row : NetRow) (table : List NetEntry) :
    ℕ × List NetEntry :=
  let deleted := I.deleteIpNetEntry2 calls.deleteIpNetEntry2 row table
  let created := I.createIpNetEntry2 calls.createIpNetEntry2 row deleted.2
  if created.1 = ERROR_OBJECT_ALREADY_EXISTS then
    I.setIpNetEntry2 calls.setIpNetEntry2 row created.2
  else created

/-- The service remembers the MAC and finds its entry. -/
def InPlace (calls : Calls) (d : Daemon) (luid : ℕ) (mac : Mac) (w : World) : Prop :=
  d.installed = true ∧ d.installedMac = mac ∧
    neighborPresent luid mac (getTable calls .net4 (w.net4.map NetEntry.row)) = true

instance (calls : Calls) (d : Daemon) (luid : ℕ) (mac : Mac) (w : World) :
    Decidable (InPlace calls d luid mac w) :=
  inferInstanceAs (Decidable (_ ∧ _ ∧ _))

/-- There is an entry for the sentinel on the interface. -/
def HasEntry (luid : ℕ) (table : List NetEntry) : Prop :=
  ∃ x ∈ table, x.SameKey (fillSentinelRow luid none)

/-- There is a permanent entry for the sentinel on the interface, with the MAC. -/
def Holds (luid : ℕ) (mac : Mac) (table : List NetEntry) : Prop :=
  ∃ x ∈ table, x.SameKey (fillSentinelRow luid none) ∧ x.row.state = .permanent ∧
    x.row.physicalAddress = mac.toList

/-- The calls of an installation are made, and fail. -/
def InstallFails (I : IpHelper) (calls : Calls) (d : Daemon) (luid : ℕ) (mac : Mac)
    (w : World) : Prop :=
  ¬ InPlace calls d luid mac w ∧
    (swap I calls (fillSentinelRow luid (some mac)) w.net4).1 ≠ NO_ERROR

section Install

variable {I : IpHelper} {calls : Calls} {d : Daemon} {w : World} {luid : ℕ} {mac : Mac}
  {row : NetRow} {table : List NetEntry}

/-- `install` in terms of what it asks of the kernel. -/
theorem install_eq : install I calls d luid mac w =
    if InPlace calls d luid mac w then (d, w)
    else
      let e := swap I calls (fillSentinelRow luid (some mac)) w.net4
      if e.1 ≠ NO_ERROR then (d, { w with net4 := e.2 })
      else ({ d with installed := true, installedMac := mac }, { w with net4 := e.2 }) :=
  rfl

/-- A creation adds the row, or fails and changes nothing. -/
theorem create_cases (I : IpHelper) (fault : Option Failure) (row : NetRow)
    (table : List NetEntry) :
    (I.createIpNetEntry2 fault row table = (NO_ERROR, I.create row table)) ∨
      (I.createIpNetEntry2 fault row table).1 ≠ NO_ERROR ∧
        (I.createIpNetEntry2 fault row table).2 = table := by
  cases fault with
  | some e => exact Or.inr ⟨e.code_ne, rfl⟩
  | none =>
      have hcode : ERROR_OBJECT_ALREADY_EXISTS ≠ NO_ERROR := by decide
      rw [IpHelper.createIpNetEntry2, attempt]
      split
      · exact Or.inr ⟨hcode, rfl⟩
      · exact Or.inl rfl

/-- A change sets the row of an entry, or fails and changes nothing. -/
theorem set_cases (I : IpHelper) (fault : Option Failure) (row : NetRow)
    (table : List NetEntry) :
    ((∃ x ∈ table, x.SameKey row) ∧
        I.setIpNetEntry2 fault row table = (NO_ERROR, I.set row table)) ∨
      (I.setIpNetEntry2 fault row table).1 ≠ NO_ERROR ∧
        (I.setIpNetEntry2 fault row table).2 = table := by
  cases fault with
  | some e => exact Or.inr ⟨e.code_ne, rfl⟩
  | none =>
      have hcode : ERROR_NOT_FOUND ≠ NO_ERROR := by decide
      rw [IpHelper.setIpNetEntry2, attempt]
      split
      · rename_i hthere
        exact Or.inl ⟨hthere, rfl⟩
      · exact Or.inr ⟨hcode, rfl⟩

/-- **What the three calls do**: the row is in the table, or they fail and leave what the
deletion left. -/
theorem swap_cases (I : IpHelper) (calls : Calls) (row : NetRow) (table : List NetEntry) :
    ((swap I calls row table).1 = NO_ERROR ∧ ⟨row, true⟩ ∈ (swap I calls row table).2) ∨
      (swap I calls row table).1 ≠ NO_ERROR ∧ (swap I calls row table).2 =
        (I.deleteIpNetEntry2 calls.deleteIpNetEntry2 row table).2 := by
  rw [swap]
  generalize (I.deleteIpNetEntry2 calls.deleteIpNetEntry2 row table).2 = table'
  split
  · rename_i hexists
    have hsame : (I.createIpNetEntry2 calls.createIpNetEntry2 row table').2 = table' := by
      rcases create_cases I calls.createIpNetEntry2 row table' with h | h
      · have hcode : NO_ERROR ≠ ERROR_OBJECT_ALREADY_EXISTS := by decide
        rw [h] at hexists
        exact absurd hexists hcode
      · exact h.2
    rw [hsame]
    rcases set_cases I calls.setIpNetEntry2 row table' with ⟨-, h⟩ | h
    · rw [h]
      exact Or.inl ⟨rfl, (I.mem_set ..).mpr (Or.inl rfl)⟩
    · exact Or.inr h
  · rcases create_cases I calls.createIpNetEntry2 row table' with h | h
    · rw [h]
      exact Or.inl ⟨rfl, (I.mem_create ..).mpr (Or.inl rfl)⟩
    · exact Or.inr h

/-- After a deletion that was carried out, the calls fail exactly when the creation does. -/
theorem swap_fails_iff (hdelete : calls.deleteIpNetEntry2 = none) :
    (swap I calls row table).1 ≠ NO_ERROR ↔ calls.createIpNetEntry2 ≠ none := by
  have hnew : ∀ x ∈ (I.deleteIpNetEntry2 none row table).2, ¬ x.SameKey row :=
    fun x hx => (IpHelper.mem_deleteIpNetEntry2.mp hx).2
  rw [swap, hdelete]
  cases hcreate : calls.createIpNetEntry2 with
  | none =>
      rw [IpHelper.createIpNetEntry2_of_new hnew]
      exact iff_of_false (not_not.mpr rfl) (not_not.mpr rfl)
  | some e =>
      refine iff_of_true ?_ (Option.some_ne_none e)
      generalize (I.deleteIpNetEntry2 none row table).2 = table' at hnew ⊢
      change (if e.code = ERROR_OBJECT_ALREADY_EXISTS then
        I.setIpNetEntry2 calls.setIpNetEntry2 row table' else (e.code, table')).1 ≠ NO_ERROR
      by_cases hexists : e.code = ERROR_OBJECT_ALREADY_EXISTS
      · rw [if_pos hexists]
        rcases set_cases I calls.setIpNetEntry2 row table' with ⟨⟨x, hx, hkey⟩, -⟩ | h
        · exact absurd hkey (hnew x hx)
        · exact h.1
      · rw [if_neg hexists]
        exact e.code_ne

/-- **What an installation does**: nothing, if the entry is in place; it leaves the entry
with its MAC; or it fails and leaves what the deletion left. -/
theorem install_cases (I : IpHelper) (calls : Calls) (d : Daemon) (luid : ℕ) (mac : Mac)
    (w : World) :
    (InPlace calls d luid mac w ∧ install I calls d luid mac w = (d, w)) ∨
    (¬ InPlace calls d luid mac w ∧ ¬ InstallFails I calls d luid mac w ∧ ∃ table,
      install I calls d luid mac w =
        ({ d with installed := true, installedMac := mac }, { w with net4 := table }) ∧
      Holds luid mac table) ∨
    (InstallFails I calls d luid mac w ∧
      install I calls d luid mac w = (d, { w with net4 :=
        (I.deleteIpNetEntry2 calls.deleteIpNetEntry2 (fillSentinelRow luid (some mac))
          w.net4).2 })) := by
  rw [install_eq]
  by_cases hplace : InPlace calls d luid mac w
  · exact Or.inl ⟨hplace, if_pos hplace⟩
  rw [if_neg hplace]
  refine Or.inr ?_
  rcases swap_cases I calls (fillSentinelRow luid (some mac)) w.net4 with
    ⟨hok, hin⟩ | ⟨hfails, hleft⟩
  · exact Or.inl ⟨hplace, fun h => h.2 hok, _, if_neg (not_not.mpr hok), _, hin, ⟨rfl, rfl⟩,
      rfl, rfl⟩
  · exact Or.inr ⟨⟨hplace, hfails⟩, by rw [if_pos hfails, hleft]⟩

/-- The entry for the sentinel on the interface is in one table what it is in the other. -/
def SameEntry (luid : ℕ) (table table' : List NetEntry) : Prop :=
  ∀ x : NetEntry, x.SameKey (fillSentinelRow luid none) → (x ∈ table' ↔ x ∈ table)

/-- An entry that is in place is there. -/
theorem holds_of_inPlace (h : InPlace calls d luid mac w) : Holds luid mac w.net4 := by
  obtain ⟨-, -, hpresent⟩ := h
  rw [getTable] at hpresent
  split at hpresent
  · cases hpresent
  · exact exists_of_neighborPresent hpresent

/-- **Exactly when a failed installation keeps the entry.** -/
theorem install_kept_iff (h : InstallFails I calls d luid mac w) :
    SameEntry luid w.net4 (install I calls d luid mac w).2.net4 ↔
      calls.deleteIpNetEntry2 ≠ none ∨ ¬ HasEntry luid w.net4 := by
  rcases install_cases I calls d luid mac w with ⟨hplace, -⟩ | ⟨-, hok, -⟩ | ⟨-, heq⟩
  · exact absurd hplace h.1
  · exact absurd h hok
  · rw [heq]
    cases hdelete : calls.deleteIpNetEntry2 with
    | some e => exact iff_of_true (fun x _ => Iff.rfl) (Or.inl (Option.some_ne_none e))
    | none =>
        constructor
        · rintro hsame
          refine Or.inr fun ⟨x, hx, hkey⟩ => ?_
          exact (IpHelper.mem_deleteIpNetEntry2.mp ((hsame x hkey).mpr hx)).2 hkey
        · intro h x hkey
          refine iff_of_false (fun hx => ?_) fun hx => ?_
          · exact (IpHelper.mem_deleteIpNetEntry2.mp hx).2 hkey
          · exact h.elim (fun hne => hne rfl) fun hnone => hnone ⟨x, hx, hkey⟩

end Install

/-! ### The flag along a history -/

/-- What happens to a running service. -/
inductive Event
  | pass (calls : Calls)
  | others

/-- A running service and its world, and whether others have removed the entry that the
service believes to be installed and it is not there again. -/
structure Situation where
  daemon : Daemon
  world : World
  removed : Prop

/-- The entry that the service believes to be installed is in the kernel. -/
def Situation.InKernel (s : Situation) : Prop :=
  ∃ luid, s.daemon.luid = some luid ∧ Holds luid s.daemon.installedMac s.world.net4

/-- A pass with any faults, or a change of the world by others. -/
def Turn (I : IpHelper) (s : Situation) (e : Event) (s' : Situation) : Prop :=
  match e with
  | .pass calls => (s'.daemon, s'.world) = reconcile I calls s.daemon s.world ∧
      (s'.removed ↔ s.removed ∧ ¬ s'.InKernel)
  | .others => s'.daemon = s.daemon ∧
      (s'.removed ↔ (s.removed ∨ s.InKernel) ∧ ¬ s'.InKernel)

/-- A set flag means that the entry is in the kernel, or was removed by others. -/
def FlagRight (s : Situation) : Prop :=
  s.daemon.installed = true → s.InKernel ∨ s.removed

/-- The pass finds the entry in the kernel, deletes it to pin a MAC, and does not create it
again. -/
def Loses (calls : Calls) (s : Situation) : Prop :=
  s.daemon.installed = true ∧ s.InKernel ∧ ∃ luid mac, s.daemon.luid = some luid ∧
    (s.world.luidToIndex luid).isSome = true ∧
    action calls s.daemon.cfg luid s.world = .pin mac ∧
    ¬ InPlace calls s.daemon luid mac s.world ∧
    calls.deleteIpNetEntry2 = none ∧ calls.createIpNetEntry2 ≠ none

section Histories

variable {I : IpHelper} {calls : Calls} {s s' : Situation} {e : Event}

/-- Others leave the flag right. -/
theorem flagRight_others (h : Turn I s .others s') (hs : FlagRight s) : FlagRight s' := by
  obtain ⟨hdaemon, hremoved⟩ := h
  intro hflag
  rw [hdaemon] at hflag
  by_cases hin : s'.InKernel
  · exact Or.inl hin
  · exact Or.inr (hremoved.mpr ⟨(hs hflag).symm, hin⟩)

/-- What others have removed is not in the kernel. -/
theorem not_inKernel_of_removed (h : Turn I s e s') (hremoved : s'.removed) :
    ¬ s'.InKernel := by
  cases e with
  | pass calls => exact (h.2.mp hremoved).2
  | others => exact (h.2.mp hremoved).2

/-- A withdrawal clears the flag. -/
theorem withdraw_installed {d : Daemon} {luid : ℕ} {w : World} :
    (withdraw I calls d luid w).1.installed = false := by
  rw [withdraw]
  split
  · rename_i hflag
    exact (Bool.not_eq_true _).mp hflag
  · rfl

/-- **What a pass does**: it clears the flag, and there is nothing to pin on a known and
present interface; or it pins a MAC. -/
theorem reconcile_cases (I : IpHelper) (calls : Calls) (d : Daemon) (w : World) :
    ((reconcile I calls d w).1.installed = false ∧ ∀ luid mac, d.luid = some luid →
      (w.luidToIndex luid).isSome = true → action calls d.cfg luid w ≠ .pin mac) ∨
    ∃ luid mac, resolveLuid d w = some luid ∧ (w.luidToIndex luid).isSome = true ∧
      action calls d.cfg luid w = .pin mac ∧
      (reconcile I calls d w).1 =
        (install I calls { d with luid := some luid } luid mac w).1 ∧
      (reconcile I calls d w).2.net4 =
        (install I calls { d with luid := some luid } luid mac w).2.net4 := by
  have hknown : ∀ luid, d.luid = some luid → resolveLuid d w = some luid := by
    intro luid hluid
    rw [resolveLuid, hluid]
  cases hresolve : resolveLuid d w with
  | none =>
      refine Or.inl ⟨by rw [reconcile, hresolve], fun luid mac hluid => ?_⟩
      rw [hknown luid hluid] at hresolve
      cases hresolve
  | some luid =>
  have honly : ∀ luid', d.luid = some luid' → luid' = luid := fun luid' hluid =>
    Option.some.inj ((hknown luid' hluid).symm.trans hresolve)
  cases hindex : w.luidToIndex luid with
  | none =>
      refine Or.inl ⟨by simp only [reconcile, hresolve, hindex], fun luid' mac hluid hpresent => ?_⟩
      rw [honly luid' hluid, hindex] at hpresent
      cases hpresent
  | some index =>
      have hon : reconcile I calls d w =
          reconcileOn I calls { d with luid := some luid } luid w := by
        simp only [reconcile, hresolve, hindex]
      have hpass := reconcileOn_action I calls { d with luid := some luid } luid w
      rw [← hon] at hpass
      cases haction : action calls d.cfg luid w with
      | remove =>
          simp only [haction] at hpass
          refine Or.inl ⟨by rw [(Prod.mk.inj hpass).1, withdraw_installed], ?_⟩
          intro luid' mac hluid _ hpin
          rw [honly luid' hluid, haction] at hpin
          cases hpin
      | pin mac =>
          simp only [haction] at hpass
          exact Or.inr ⟨luid, mac, rfl, by rw [hindex]; rfl, haction, (Prod.mk.inj hpass).1,
            (Prod.mk.inj hpass).2⟩

/-- The entry is where the service believes it to be. -/
theorem inKernel_of_holds {luid : ℕ} {mac : Mac} (hluid : s.daemon.luid = some luid)
    (hmac : s.daemon.installedMac = mac) (hholds : Holds luid mac s.world.net4) : s.InKernel :=
  ⟨luid, hluid, hmac.symm ▸ hholds⟩

/-- A pass that loses the entry loses it in the installation that it makes. -/
theorem Loses.installFails {luid : ℕ} {mac : Mac} (h : Loses calls s)
    (hresolve : resolveLuid s.daemon s.world = some luid)
    (haction : action calls s.daemon.cfg luid s.world = .pin mac) :
    InstallFails I calls s.daemon luid mac s.world := by
  obtain ⟨-, -, luid', mac', hluid, -, haction', hplace, hdelete, hcreate⟩ := h
  rw [resolveLuid, hluid] at hresolve
  obtain rfl := Option.some.inj hresolve
  obtain rfl := PinAction.pin.inj (haction'.symm.trans haction)
  exact ⟨hplace, (swap_fails_iff hdelete).mpr hcreate⟩

/-- **Which failing installation loses the entry**: one that has deleted it. -/
theorem loses_iff_of_installFails {luid : ℕ} {mac : Mac}
    (hresolve : resolveLuid s.daemon s.world = some luid)
    (hpresent : (s.world.luidToIndex luid).isSome = true)
    (haction : action calls s.daemon.cfg luid s.world = .pin mac)
    (hfails : InstallFails I calls s.daemon luid mac s.world) :
    Loses calls s ↔
      s.daemon.installed = true ∧ s.InKernel ∧ calls.deleteIpNetEntry2 = none := by
  constructor
  · rintro ⟨hflag, hin, _, _, -, -, -, -, hdelete, -⟩
    exact ⟨hflag, hin, hdelete⟩
  · rintro ⟨hflag, hin, hdelete⟩
    obtain ⟨luid', hluid, hholds⟩ := hin
    rw [resolveLuid, hluid] at hresolve
    obtain rfl := Option.some.inj hresolve
    exact ⟨hflag, ⟨luid', hluid, hholds⟩, luid', mac, hluid, hpresent, haction, hfails.1,
      hdelete, (swap_fails_iff hdelete).mp hfails.2⟩

/-- **The flag after an installation that fails** is right unless the entry was deleted. -/
theorem flagRight_failed_iff {luid : ℕ} {mac : Mac} (hs : FlagRight s)
    (hout : s.removed → ¬ s.InKernel) (hremoved : s'.removed ↔ s.removed ∧ ¬ s'.InKernel)
    (hresolve : resolveLuid s.daemon s.world = some luid)
    (hd : s'.daemon = { s.daemon with luid := some luid })
    (hnet4 : s'.world.net4 = (I.deleteIpNetEntry2 calls.deleteIpNetEntry2
      (fillSentinelRow luid (some mac)) s.world.net4).2) :
    FlagRight s' ↔
      ¬ (s.daemon.installed = true ∧ s.InKernel ∧ calls.deleteIpNetEntry2 = none) := by
  constructor
  · rintro hright ⟨hflag, hin, hdelete⟩
    have hflag' : s'.daemon.installed = true := by
      rw [hd]
      exact hflag
    rcases hright hflag' with ⟨luid', hluid', x, hx, hkey, -⟩ | hgone
    · rw [hd] at hluid'
      obtain rfl := Option.some.inj hluid'
      rw [hnet4, hdelete] at hx
      exact (IpHelper.mem_deleteIpNetEntry2.mp hx).2 hkey
    · exact hout (hremoved.mp hgone).1 hin
  · intro hkept hflag'
    have hflag : s.daemon.installed = true := by
      rw [hd] at hflag'
      exact hflag'
    by_cases hin' : s'.InKernel
    · exact Or.inl hin'
    refine Or.inr (hremoved.mpr ⟨(hs hflag).resolve_left fun hin => hin' ?_, hin'⟩)
    -- the entry was there, and the deletion failed
    obtain ⟨e, hdelete⟩ : ∃ e, calls.deleteIpNetEntry2 = some e :=
      Option.ne_none_iff_exists'.mp fun hnone => hkept ⟨hflag, hin, hnone⟩
    obtain ⟨luid', hluid, hholds⟩ := hin
    rw [resolveLuid, hluid] at hresolve
    obtain rfl := Option.some.inj hresolve
    refine inKernel_of_holds (by rw [hd]) (by rw [hd]) ?_
    rw [hnet4, hdelete]
    exact hholds

/-- **Exactly when a pass leaves the flag right.** -/
theorem flagRight_pass_iff (h : Turn I s (.pass calls) s') (hs : FlagRight s)
    (hremoved : s.removed → ¬ s.InKernel) : FlagRight s' ↔ ¬ Loses calls s := by
  obtain ⟨hpass, hremoved'⟩ := h
  have hdaemon : s'.daemon = (reconcile I calls s.daemon s.world).1 := congrArg Prod.fst hpass
  have hworld : s'.world = (reconcile I calls s.daemon s.world).2 := congrArg Prod.snd hpass
  rcases reconcile_cases I calls s.daemon s.world with
    ⟨hflag, hnothing⟩ | ⟨luid, mac, hresolve, hpresent, haction, hd, hnet4⟩
  · refine iff_of_true (fun hflag' => ?_) ?_
    · rw [hdaemon, hflag] at hflag'
      cases hflag'
    · rintro ⟨-, -, luid, mac, hluid, hpresent, haction, -⟩
      exact hnothing luid mac hluid hpresent haction
  rw [← hdaemon] at hd
  rw [← hworld] at hnet4
  have hloses : Loses calls s → InstallFails I calls s.daemon luid mac s.world :=
    fun h => h.installFails hresolve haction
  rcases install_cases I calls { s.daemon with luid := some luid } luid mac s.world with
    ⟨hplace, heq⟩ | ⟨-, hok, table, heq, hholds⟩ | ⟨hfails, heq⟩
  · rw [heq] at hd hnet4
    have hmac : s'.daemon.installedMac = mac := by
      rw [hd]
      exact hplace.2.1
    refine iff_of_true (fun _ => Or.inl ?_) fun h => (hloses h).1 hplace
    refine inKernel_of_holds (by rw [hd]) hmac ?_
    rw [hnet4]
    exact holds_of_inPlace hplace
  · rw [heq] at hd hnet4
    have hmac : s'.daemon.installedMac = mac := by rw [hd]
    refine iff_of_true (fun _ => Or.inl ?_) fun h => hok (hloses h)
    refine inKernel_of_holds (by rw [hd]) hmac ?_
    rw [hnet4]
    exact hholds
  · rw [heq] at hd hnet4
    rw [loses_iff_of_installFails hresolve hpresent haction hfails]
    exact flagRight_failed_iff hs hremoved hremoved' hresolve hd hnet4

/-- A service that has just started. -/
def started (cfg : Config) (w : World) : Situation := ⟨Daemon.fresh cfg, w, False⟩

/-- **The histories in which the flag is right throughout.** -/
theorem flag_right_iff {cfg : Config} {w : World} {es : List Event} :
    Run (fun s e s' => Turn I s e s' ∧ FlagRight s') (started cfg w) es s' ↔
      Run (fun s e s' => Turn I s e s' ∧ ∀ calls, e = .pass calls → ¬ Loses calls s)
        (started cfg w) es s' := by
  refine Run.always_iff (I := fun s => FlagRight s ∧ (s.removed → ¬ s.InKernel))
    (J := fun _ _ s' => FlagRight s') (fun s e s' _ hturn hright => ?_)
    (fun s e s' hs hturn => ?_) ⟨?_, False.elim⟩
  · exact ⟨hright, not_inKernel_of_removed hturn⟩
  · cases e with
    | pass calls =>
        rw [flagRight_pass_iff hturn hs.1 hs.2]
        exact ⟨fun h calls' hcalls => Event.pass.inj hcalls ▸ h, fun h => h calls rfl⟩
    | others => exact iff_of_true (flagRight_others hturn hs.1) fun calls h => by cases h
  · exact fun hflag => absurd hflag Bool.false_ne_true

end Histories

/-- **Exactly when a failed re-pin does no harm**: for every table, daemon state and MAC, an
installation whose calls fail keeps the entry exactly when the deletion failed as well or
there was none; and over every history of a service, with any faults and any changes by
others, a set flag always means an entry in the kernel, or one that others removed, exactly
when no pass deletes the entry without creating it again. -/
theorem failed_repin_iff (I : IpHelper) :
    (∀ (calls : Calls) (d : Daemon) (luid : ℕ) (mac : Mac) (w : World),
      InstallFails I calls d luid mac w →
        (SameEntry luid w.net4 (install I calls d luid mac w).2.net4 ↔
          calls.deleteIpNetEntry2 ≠ none ∨ ¬ HasEntry luid w.net4)) ∧
    (∀ (cfg : Config) (w : World) (es : List Event) (s' : Situation),
      Run (fun s e s' => Turn I s e s' ∧ FlagRight s') (started cfg w) es s' ↔
        Run (fun s e s' => Turn I s e s' ∧ ∀ calls, e = .pass calls → ¬ Loses calls s)
          (started cfg w) es s') :=
  ⟨fun _ _ _ _ _ => install_kept_iff, fun _ _ _ _ => flag_right_iff⟩

/-! ### A creation that fails -/

/-- A failure: `ERROR_ACCESS_DENIED`. -/
def denied : Failure := ⟨5, by decide⟩

/-- The calls of a pass whose creation fails. -/
def createFails : Calls := { Calls.succeed with createIpNetEntry2 := some denied }

/-- The MAC of another router. -/
def otherMac : Mac := ⟨[0xb8, 0x69, 0xf4, 0x1b, 0xea, 0x7c], rfl⟩

/-- The world after a first pass, when another router has taken over the address. -/
def takenOver : World :=
  { afterPass.2 with
    net6 := [⟨6, .ipv6 0xfe800000000000000000000000000001#128, otherMac.toList, .reachable⟩] }

/-- The service and the world after the pass that is to pin the other MAC. -/
def afterFailure : Daemon × World := reconcile plainIpHelper createFails afterPass.1 takenOver

/-- The deletion fails as well: the entry stays. -/
theorem install_kept_denied :
    SameEntry 6 takenOver.net4 (install plainIpHelper
      { createFails with deleteIpNetEntry2 := some denied } afterPass.1 6 otherMac
        takenOver).2.net4 :=
  ((failed_repin_iff plainIpHelper).1 _ _ _ _ _ ⟨by decide, by decide⟩).mpr
    (Or.inl (Option.some_ne_none denied))

/-- **A failed re-pin loses the entry**: a service that has pinned one router is to pin
another, the creation fails, and neither entry is left, with the flag still set. -/
theorem failed_repin_loses :
    (InstallFails plainIpHelper createFails afterPass.1 6 otherMac takenOver ∧
      ¬ SameEntry 6 takenOver.net4
        (install plainIpHelper createFails afterPass.1 6 otherMac takenOver).2.net4) ∧
    (Run (Turn plainIpHelper) (started ethernet withRouter)
        [.pass .succeed, .others, .pass createFails] ⟨afterFailure.1, afterFailure.2, False⟩ ∧
      ¬ FlagRight ⟨afterFailure.1, afterFailure.2, False⟩) := by
  have hentry : (⟨fillSentinelRow 6 (some routerMac), true⟩ : NetEntry) ∈ takenOver.net4 := by
    decide
  have hnone : afterFailure.2.net4 = [] := by decide
  refine ⟨⟨⟨by decide, by decide⟩, fun hsame => ?_⟩, ?_, fun hright => ?_⟩
  · have hin := (hsame _ ⟨rfl, rfl⟩).mpr hentry
    revert hin
    decide
  · have hpin : Turn plainIpHelper (started ethernet withRouter) (.pass .succeed)
        ⟨afterPass.1, afterPass.2, False⟩ := ⟨rfl, iff_of_false id fun h => h.1⟩
    have hothers : Turn plainIpHelper ⟨afterPass.1, afterPass.2, False⟩ .others
        ⟨afterPass.1, takenOver, False⟩ := by
      refine ⟨rfl, iff_of_false id fun h => h.2 ⟨6, by decide, ?_⟩⟩
      exact ⟨_, hentry, ⟨rfl, rfl⟩, rfl, by decide⟩
    have hlose : Turn plainIpHelper ⟨afterPass.1, takenOver, False⟩ (.pass createFails)
        ⟨afterFailure.1, afterFailure.2, False⟩ := ⟨rfl, iff_of_false id fun h => h.1⟩
    exact .cons hpin (.cons hothers (Run.single hlose))
  · rcases hright (by decide) with ⟨luid, -, x, hx, -⟩ | hremoved
    · rw [hnone] at hx
      cases hx
    · exact hremoved

end V4WithV6Nh.WindowsDaemon
