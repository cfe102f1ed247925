import V4WithV6Nh.Linux
import V4WithV6Nh.OrderedDict

/-!
# The Return-Route Daemon `v4gwrd.py`

The router-side daemon keeps a table of leased hosts, keyed by MAC, and for each of them
a proto-149 route `<ip4>/32 via inet6 <next hop>` in the IPv4 FIB. This module is its
`Manager` class, method by method.

An event of the daemon sees an `Env`: a snapshot of what the kernel lets it read, the
answers of the clock, and a fault plan that says which netlink calls fail and with what
error. The plan is indexed by the call and the MAC on whose behalf it is made. One event
makes each of these calls at most once, so a plan can make any subset of them fail.

What an event changes is the `World`: the table, the IPv4 tables of the kernel, the
state file, and `trace`, which records newest first what the daemon did and is read by no
method. `link_lookup` and `get_routes` are not guarded in the source, so `evaluate` can
end in an exception; the world is then what it was when the exception was raised.

Log lines are left out.
-/

namespace V4WithV6Nh.Manager

/-- `RT_PROTO`. -/
def RT_PROTO : ℕ := 149

/-- `GUA_PROBE_DELAY`, in nanoseconds of the monotonic clock. -/
def GUA_PROBE_DELAY : ℕ := 15000000000

/-! ### State -/

/-- A tracked host: a value of `Manager.hosts`. -/
structure Host where
  iface : Text
  ip4 : Text
  /-- The next hop the daemon remembers having installed. -/
  nh : Option IPv6
  /-- When the derived GUA may be solicited. -/
  probeAt : Option ℕ
deriving DecidableEq

/-- The netlink calls of one event, by the MAC they are made for. An event withdraws at
most one route. -/
inductive Call
  | linkLookup (mac : Text)
  | getRoutes (mac : Text)
  | getNeighbours (mac : Text)
  | routeReplace (mac : Text)
  | neighDel (mac : Text)
  | routeDel
deriving DecidableEq

/-- The readings of `time.monotonic()` in one event. -/
inductive Reading
  | arming
  | evaluating (mac : Text)
deriving DecidableEq

/-- What the daemon reads and depends on during one event. -/
structure Env extends Snapshot where
  fault : Call → Option NetlinkError
  monotonic : Reading → ℕ
  /-- The state file cannot be written. -/
  stateWriteFails : Bool

/-- What the daemon does. -/
inductive Effect
  /-- A new entry was made in the table. -/
  | tracked (mac iface ip4 : Text)
  /-- The GUA check of a lease was armed for the given time. -/
  | armed (mac : Text) (due : ℕ)
  /-- A datagram to `gua` was sent, at the given time. -/
  | kicked (mac iface : Text) (gua : IPv6) (time : ℕ)
  /-- A route was requested, with the error it was answered with. -/
  | replaced (mac ip4 : Text) (nh : IPv6) (result : Option NetlinkError)
  /-- The deletion of a route was requested. -/
  | withdrew (ip4 : Text) (result : Option NetlinkError)
deriving DecidableEq

/-- The state of the daemon, the tables it writes, and its state file. -/
structure World where
  hosts : OrderedDict Text Host
  tables : Tables
  /-- The contents of the state file, `none` if there is none. -/
  state : Option Text
  trace : List Effect

/-- The daemon at its first start, on empty tables. -/
def World.start : World := ⟨OrderedDict.empty, ⟨[], []⟩, none, []⟩

/-- The result of a method that may raise `NetlinkError`. -/
abbrev Outcome := Except NetlinkError Unit × World

/-- The route the daemon installs for a host. -/
def hostRoute (ip4 : Text) (idx : ℕ) (nh : IPv6) : Route4 where
  table := RT_TABLE_MAIN
  dst := ip4
  dstLen := 32
  tos := 0
  priority := 0
  oif := some idx
  proto := RT_PROTO
  gateway := none
  via := some nh

/-- The routes `withdraw` asks the kernel to delete. -/
def hostRoutes (ip4 : Text) : RouteFilter where
  dst := ip4
  dstLen := 32
  oif := none
  priority := none
  proto := RT_PROTO

/-! ### Inspection -/

/-- `is_global_or_ula`: 2000::/3 or fc00::/7. -/
def isGlobalOrUla (addr : IPv6) : Bool :=
  let b0 := (addr >>> 120).toNat
  (0x20 ≤ b0 && b0 ≤ 0x3f) || b0 == 0xfc || b0 == 0xfd

/-- `dst.startswith("fe80")` for an address in canonical text: its first group is
fe80. -/
def startsWithFe80 (addr : IPv6) : Bool :=
  (addr >>> 112).toNat == 0xfe80

section Inspection

variable [UnicodeTables]

/-- One octet of a MAC: `int(x, 16)` in the range of `bytes`. -/
def macOctet (x : Text) : Option (BitVec 8) := do
  let n ← int16 x
  if 0 ≤ n ∧ n < 256 then some (BitVec.ofNat 8 n.toNat) else none

/-- `derive_gua`: the advertised /64 and the modified EUI-64 of the MAC. -/
def deriveGua (net : IPv6) (mac : Text) : Option IPv6 :=
  match (mac.splitOn ':').mapM macOctet with
  | some [m0, m1, m2, m3, m4, m5] =>
      let iid : BitVec 64 :=
        (m0 ^^^ 0x02#8) ++ m1 ++ m2 ++ 0xff#8 ++ 0xfe#8 ++ m3 ++ m4 ++ m5
      some (net ||| iid.setWidth 128)
  | _ => none

/-- The network address of `IPv6Network(f"{dst}/64", strict=False)`. -/
def network64 (dst : IPv6) : IPv6 :=
  (dst >>> 64) <<< 64

/-- `Manager._prefix`: the first on-link global or ULA /64 of the interface. -/
def prefixOf (env : Env) (idx : ℕ) : Option IPv6 :=
  env.routes6.findSome? fun r =>
    if r.dstLen ≠ 64 ∨ r.oif ≠ some idx then none
    else
      match r.dst with
      | some dst => if isGlobalOrUla dst then some (network64 dst) else none
      | none => none

/-- `Manager._cache`: the addresses of the host in the router's ND cache, with their NUD
states. A dump that fails reads as an empty cache. -/
def cache (env : Env) (idx : ℕ) (mac : Text) : OrderedDict IPv6 ℕ :=
  match env.fault (.getNeighbours mac) with
  | some _ => OrderedDict.empty
  | none =>
      (env.neigh6.filter fun n => decide (n.ifindex = idx)).foldl
        (fun out n =>
          match n.lladdr, n.dst with
          | some lla, some dst =>
              if lla ≠ [] ∧ UnicodeTables.lower lla = mac then out.set dst n.state else out
          | _, _ => out)
        OrderedDict.empty

/-- `Manager.best_nexthop`: the next hop, and the derived GUA in any case. -/
def bestNexthop (env : Env) (idx : ℕ) (mac : Text) :
    Except NetlinkError (Option IPv6 × Option IPv6) :=
  match env.fault (.getRoutes mac) with
  | some e => .error e
  | none =>
      let gua := (prefixOf env idx).bind fun net => deriveGua net mac
      let cache := cache env idx mac
      let usableGua := gua.filter fun g => nudUsable ((cache.get g).getD 0)
      let usable (q : IPv6 → Bool) :=
        (cache.entries.find? fun e => nudUsable e.2 && q e.1).map Prod.fst
      match usableGua, usable isGlobalOrUla, usable startsWithFe80 with
      | some g, _, _ => .ok (some g, gua)
      | none, some dst, _ => .ok (some dst, gua)
      | none, none, some dst => .ok (some dst, gua)
      | none, none, none => .ok (none, gua)

/-- `Manager._index`. -/
def index (env : Env) (mac ifname : Text) : Except NetlinkError (Option ℕ) :=
  match env.fault (.linkLookup mac) with
  | some e => .error e
  | none => .ok (linkLookup env.links ifname)

end Inspection

/-! ### Programming -/

/-- `Manager.install`. A replace that fails is logged and forgotten; the deletion of the
IPv4 neighbour is best effort. -/
def install (env : Env) (mac : Text) (idx : ℕ) (ip4 : Text) (nh : IPv6) (w : World) :
    World :=
  match routeReplace (env.fault (.routeReplace mac)) (hostRoute ip4 idx nh) w.tables with
  | .error e => { w with trace := .replaced mac ip4 nh (some e) :: w.trace }
  | .ok t =>
      match neighDel (env.fault (.neighDel mac)) idx ip4 t with
      | .error _ => { w with tables := t, trace := .replaced mac ip4 nh none :: w.trace }
      | .ok t' => { w with tables := t', trace := .replaced mac ip4 nh none :: w.trace }

/-- `Manager.withdraw`. -/
def withdraw (env : Env) (ip4 : Text) (w : World) : World :=
  match routeDel (env.fault .routeDel) (hostRoutes ip4) w.tables with
  | .error e => { w with trace := .withdrew ip4 (some e) :: w.trace }
  | .ok t => { w with tables := t, trace := .withdrew ip4 none :: w.trace }

/-- The line of one host in the state file. -/
def stateLine (mac : Text) (h : Host) : Text :=
  mac ++ ' ' :: h.iface ++ ' ' :: h.ip4 ++ ['\n']

/-- `Manager.persist`: the file is replaced as a whole or not at all. -/
def persist (env : Env) (w : World) : World :=
  if env.stateWriteFails then w
  else { w with state := some (w.hosts.entries.flatMap fun e => stateLine e.1 e.2) }

/-! ### Evaluation -/

/-- The solicitation step of `evaluate`: disarm once the host is on its derived GUA, or
solicit that GUA once the settle delay is over. -/
def solicit (env : Env) (mac : Text) (nh gua : Option IPv6) (h : Host) :
    Host × List Effect :=
  match gua, h.probeAt with
  | none, _ => (h, [])
  | some g, due =>
      if nh = some g then ({ h with probeAt := none }, [])
      else
        match due with
        | none => (h, [])
        | some t =>
            if t ≤ env.monotonic (.evaluating mac) then
              ({ h with probeAt := none },
                [.kicked mac h.iface g (env.monotonic (.evaluating mac))])
            else (h, [])

/-- The last step of `evaluate`: move the route to `nh`, unless that is the remembered
next hop already. The table is updated whatever `install` did. -/
def follow (env : Env) (mac : Text) (idx : ℕ) (nh : Option IPv6) (h : Host) (w : World) :
    World :=
  match nh with
  | none => w
  | some n =>
      if h.nh = some n then w
      else
        let w := install env mac idx h.ip4 n w
        { w with hosts := w.hosts.set mac { h with nh := some n } }

section Evaluation

variable [UnicodeTables]

/-- `Manager.evaluate`. -/
def evaluate (env : Env) (mac : Text) (w : World) : Outcome :=
  match w.hosts.get mac with
  | none => (.ok (), w)
  | some h =>
      match index env mac h.iface with
      | .error e => (.error e, w)
      | .ok none => (.ok (), w)
      | .ok (some idx) =>
          match bestNexthop env idx mac with
          | .error e => (.error e, w)
          | .ok (nh, gua) =>
              let (h', effects) := solicit env mac nh gua h
              let w := { w with hosts := w.hosts.set mac h', trace := effects ++ w.trace }
              (.ok (), follow env mac idx nh h' w)

/-- `evaluate` for each MAC in turn; an exception ends the loop. -/
def evaluateEach (env : Env) : List Text → World → Outcome
  | [], w => (.ok (), w)
  | mac :: macs, w =>
      match evaluate env mac w with
      | (.ok (), w) => evaluateEach env macs w
      | (.error e, w) => (.error e, w)

/-- `Manager.reconcile_all`. -/
def reconcileAll (env : Env) (w : World) : Outcome :=
  evaluateEach env w.hosts.keys w

/-! ### Events -/

/-- The entry `on_lease` works on: the present one, or a new one if there is none or the
lease names another interface or address, in which case the old route is withdrawn. -/
def leaseEntry (env : Env) (iface mac ip4 : Text) (w : World) : Host × World :=
  let new : Host := { iface := iface, ip4 := ip4, nh := none, probeAt := none }
  match w.hosts.get mac with
  | none => (new, { w with trace := .tracked mac iface ip4 :: w.trace })
  | some h =>
      if h.iface ≠ iface ∨ h.ip4 ≠ ip4 then
        let w := withdraw env h.ip4 w
        (new, { w with trace := .tracked mac iface ip4 :: w.trace })
      else (h, w)

/-- The table update of `on_lease`: the entry, with its GUA check armed. -/
def record (env : Env) (iface mac ip4 : Text) (w : World) : World :=
  let (h, w) := leaseEntry env iface mac ip4 w
  let due := env.monotonic .arming + GUA_PROBE_DELAY
  { w with
    hosts := w.hosts.set mac { h with probeAt := some due }
    trace := .armed mac due :: w.trace }

/-- `Manager.on_lease`. -/
def onLease (env : Env) (iface mac ip4 : Text) (w : World) : Outcome :=
  evaluate env mac (persist env (record env iface mac ip4 w))

/-- `Manager.on_release`. The address of the event is not looked at. -/
def onRelease (env : Env) (mac _ip4 : Text) (w : World) : World :=
  match w.hosts.get mac with
  | none => w
  | some h => persist env (withdraw env h.ip4 { w with hosts := w.hosts.pop mac })

/-- `Manager.handle_line`. -/
def handleLine (env : Env) (line : Text) (w : World) : Outcome :=
  match split line with
  | action :: iface :: mac :: ip4 :: _ =>
      if action = "add".toList ∨ action = "old".toList then
        onLease env iface (UnicodeTables.lower mac) ip4 w
      else if action = "del".toList then
        (.ok (), onRelease env (UnicodeTables.lower mac) ip4 w)
      else (.ok (), w)
  | _ => (.ok (), w)

/-- What wakes `serve`: a line on the FIFO, or a netlink event or poll timeout, which
both sweep the table. -/
inductive Event
  | line (line : Text)
  | sweep
deriving DecidableEq

/-- One turn of `serve`. -/
def step (env : Env) : Event → World → Outcome
  | .line line, w => handleLine env line w
  | .sweep, w => reconcileAll env w

end Evaluation

end V4WithV6Nh.Manager
