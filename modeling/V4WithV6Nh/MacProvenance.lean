import V4WithV6Nh.PinRemoval

/-!
# Where a Pinned MAC Comes From

The macOS daemon pins a MAC that it resolves in the same pass, or one that it reads from a
file named by the own MAC of the interface. Over a whole history, with any number of
lifetimes and any changes of the own MAC, such a file holds what the latest pass resolved
under that own MAC: the names of two own MACs differ, a line is read back as it was
written, and a write that is skipped would have changed nothing.

The log of a history says, newest first, under which own MAC each pass resolved which
router.

## Main results

* `stored_of_run`: what is stored after a history is what it resolved last.
* `pinned_mac_resolved`: a pass that installs a MAC has resolved it, or resolves nothing and
  the latest pass that did under the same own MAC resolved that one.
-/

namespace V4WithV6Nh.MacosDaemon

section Provenance

variable {A : Arp} {calls : Calls} {d : Daemon} {w : World} {host mac : Mac}

/-- A router MAC, and the own MAC under which a pass resolved it, if it had one. -/
structure Resolution where
  host : Option Mac
  router : Mac
deriving DecidableEq

/-- What a pass resolves: nothing without the interface or with a closed gate. -/
def resolution (calls : Calls) (d : Daemon) (w : World) : Option Resolution :=
  if w.ifNametoindex d.cfg.ifname ≠ 0 ∧ gate calls d.cfg w = true then
    (resolvedMac calls d.cfg w).map fun mac => ⟨hostMac calls d.cfg w, mac⟩
  else none

/-- The router of the latest pass that resolved one under an own MAC. -/
def latest (host : Mac) (past : List Resolution) : Option Mac :=
  (past.find? fun r => r.host = some host).map Resolution.router

/-- A pass calls `install` with the MAC. -/
def Installs (calls : Calls) (d : Daemon) (w : World) (mac : Mac) : Prop :=
  w.ifNametoindex d.cfg.ifname ≠ 0 ∧ action calls d.cfg w = .pin mac

/-- Every write of a mapping completes. -/
def WritesComplete (calls : Calls) : Prop := ∀ host, calls.WritesComplete host

/-- Only the daemon writes into the cache directory. -/
def CacheUntouched (w w' : World) : Prop :=
  ∀ host, w'.files (routerCachePath host) = w.files (routerCachePath host)

/-- What a history has stored for every own MAC is what it resolved last under it. -/
def Remembered (w : World) (past : List Resolution) : Prop :=
  ∀ host, routerCacheLookup .succeed w.files host = latest host past

/-- What a pass that calls `install` does to the memory and the ARP table. -/
theorem Installs.reconcile_eq (h : Installs calls d w mac) :
    ((reconcile A calls d w).1, (reconcile A calls d w).2.arp) =
      ((install A calls d mac w).1, (install A calls d mac w).2.arp) := by
  have hpass := reconcile_action (A := A) calls h.1
  rwa [h.2] at hpass

/-- What a pass makes of the files. -/
theorem reconcile_files_eq : (reconcile A calls d w).2.files =
    match resolution calls d w with
    | some ⟨some host, mac⟩ => routerCachePut calls w.files host mac
    | _ => w.files := by
  rw [reconcile, resolution]
  by_cases hif : w.ifNametoindex d.cfg.ifname = 0
  · simp [hif]
  · by_cases hgate : gate calls d.cfg w = true
    · rw [if_neg hif, if_neg (not_not.mpr hgate), if_pos ⟨hif, hgate⟩]
      cases hresolved : resolvedMac calls d.cfg w with
      | some mac =>
          cases hhost : hostMac calls d.cfg w with
          | some host =>
              simp only [install_files, Option.map_some]
          | none => exact install_files calls
      | none =>
          simp only [Option.map_none]
          split
          · exact install_files calls
          · exact withdraw_files calls
    · rw [if_neg hif, if_pos hgate, if_neg fun h => hgate h.2]
      exact withdraw_files calls

/-- What a resolution adds to the log. -/
theorem latest_cons {r : Resolution} {past : List Resolution} :
    latest host (r :: past) = if r.host = some host then some r.router else latest host past := by
  rw [latest, List.find?_cons]
  by_cases h : r.host = some host
  · rw [if_pos h, decide_eq_true h]
    rfl
  · rw [if_neg h, decide_eq_false h]
    rfl

/-- **A pass keeps the files and the log together.** -/
theorem remembered_reconcile {past : List Resolution} (hcalls : WritesComplete calls)
    (h : Remembered w past) :
    Remembered (reconcile A calls d w).2 ((resolution calls d w).toList ++ past) := by
  intro host
  rw [reconcile_files_eq]
  rcases resolution calls d w with _ | ⟨_ | own, mac⟩
  · exact h host
  · rw [Option.toList_some, List.singleton_append, latest_cons, if_neg (by simp)]
    exact h host
  · rw [Option.toList_some, List.singleton_append, latest_cons]
    simp only [routerCacheLookup_put_of_writesComplete (hcalls own), h host, Option.some.injEq,
      eq_comm]

/-- **What is stored after a history is what it resolved last**, if it started without
stored routers. -/
theorem stored_of_run {s : Option Daemon × World} {s' : (Option Daemon × World) × List Resolution}
    {es : List (LifeEvent Config Calls)} (hempty : ∀ host, s.2.files (routerCachePath host) = none)
    (hrun : Run (fun s e s' => (program A).LogTurn (fun calls d w => (resolution calls d w).toList)
        s e s' ∧ Program.Meets WritesComplete CacheUntouched s.1 e s'.1) (s, []) es s') :
    Remembered s'.1.2 s'.2 := by
  refine Program.log_invariant (I := Remembered)
    (fun calls d w past hcalls h => remembered_reconcile hcalls h) ?_ ?_ hrun ?_
  · intro calls d w past h host
    rw [show (program A).stop calls d w = (withdraw A calls d w).2 from rfl, withdraw_files]
    exact h host
  · intro w w' past hsame h host
    rw [routerCacheLookup_congr (hsame host)]
    exact h host
  · intro host
    rw [routerCacheLookup, fopen, hempty]
    rfl

/-- **Where an installed MAC comes from**: over every history of lifetimes that starts
without stored routers, whose writes complete and in which only the daemon writes into the
cache directory, a pass that installs a MAC has resolved it, or resolves none and the latest
pass that resolved a router under the same own MAC resolved that one. -/
theorem pinned_mac_resolved {s : Option Daemon × World} {past : List Resolution}
    {es : List (LifeEvent Config Calls)} (hempty : ∀ host, s.2.files (routerCachePath host) = none)
    (hrun : Run (fun s e s' => (program A).LogTurn (fun calls d w => (resolution calls d w).toList)
        s e s' ∧ Program.Meets WritesComplete CacheUntouched s.1 e s'.1) (s, []) es
        ((some d, w), past)) (hinstalls : Installs calls d w mac) :
    resolvedMac calls d.cfg w = some mac ∨
      resolvedMac calls d.cfg w = none ∧
        ∃ host, hostMac calls d.cfg w = some host ∧ latest host past = some mac := by
  have hstored := stored_of_run hempty hrun
  obtain ⟨-, haction⟩ := hinstalls
  rw [action, pinAction] at haction
  split at haction
  · cases hresolved : resolvedMac calls d.cfg w with
    | some m =>
        rw [hresolved] at haction
        obtain rfl : m = mac := PinAction.pin.inj haction
        exact Or.inl rfl
    | none =>
        rw [hresolved, Option.none_or] at haction
        cases hmac : storedMac calls d.cfg w with
        | none =>
            rw [hmac] at haction
            cases haction
        | some m =>
            rw [hmac] at haction
            obtain rfl : m = mac := PinAction.pin.inj haction
            obtain ⟨host, hhost, hlookup⟩ := Option.bind_eq_some_iff.mp hmac
            refine Or.inr ⟨rfl, host, hhost, ?_⟩
            exact (hstored host).symm.trans (routerCacheLookup_of_eq_some hlookup)
  · cases haction

end Provenance

/-- The own MAC of `en0` in `withRouter`. -/
def ownMac : Mac := ⟨[2, 0, 0, 0, 0, 1], rfl⟩

/-- A second lifetime that resolves no router installs what the first one resolved. -/
theorem pinned_mac_resolved_restart :
    resolvedMac .succeed en0 withoutRouter = some routerMac ∨
      resolvedMac .succeed en0 withoutRouter = none ∧
        ∃ host, hostMac .succeed en0 withoutRouter = some host ∧
          latest host [⟨some ownMac, routerMac⟩] = some routerMac := by
  have hcalls : WritesComplete .succeed := fun _ => ⟨rfl, rfl, rfl⟩
  have hrun : Run (fun s e s' => (program plainArp).LogTurn
        (fun calls d w => (resolution calls d w).toList) s e s' ∧
        Program.Meets WritesComplete CacheUntouched s.1 e s'.1) ((none, withRouter), [])
      [.start en0, .pass .succeed, .kill, .others, .start en0]
      ((some (Daemon.fresh en0), withoutRouter), [⟨some ownMac, routerMac⟩]) := by
    refine @Run.cons _ _ _ _ ((some (Daemon.fresh en0), withRouter), []) _ _ _
        ⟨⟨rfl, rfl⟩, ?_, ?_⟩
      (@Run.cons _ _ _ _ ((some afterPass.1, afterPass.2), [⟨some ownMac, routerMac⟩]) _ _ _
        ⟨⟨rfl, rfl⟩, ?_, ?_⟩
      (@Run.cons _ _ _ _ ((none, afterPass.2), [⟨some ownMac, routerMac⟩]) _ _ _
        ⟨⟨rfl, rfl⟩, ?_, ?_⟩
      (@Run.cons _ _ _ _ ((none, withoutRouter), [⟨some ownMac, routerMac⟩]) _ _ _
        ⟨⟨⟨rfl, fun _ hx _ => hx⟩, rfl⟩, ?_, ?_⟩
      (Run.single ⟨⟨rfl, rfl⟩, ?_, ?_⟩))))
    · rintro _ ⟨⟩
    · rintro ⟨⟩
    · rintro _ ⟨⟩
      exact hcalls
    · rintro ⟨⟩
    · rintro _ ⟨⟩
    · rintro ⟨⟩
    · rintro _ ⟨⟩
    · rintro ⟨⟩
      exact fun _ => rfl
    · rintro _ ⟨⟩
    · rintro ⟨⟩
  exact pinned_mac_resolved (fun _ => rfl) hrun ⟨by decide, rfl⟩

end V4WithV6Nh.MacosDaemon
