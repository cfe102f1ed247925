import V4WithV6Nh.Linux
import V4WithV6Nh.OrderedDict

/-!
# The Host Daemon `v4gwd.py`

The host-side daemon manages a set of interfaces. For each of them it looks for the
sentinel default route that DHCP installs, selects an IPv6 default router, and installs
an IPv4 default route through it; on kernels without RTA_VIA it pins a permanent
neighbour entry for the sentinel instead. This module is its `Interface` class, method by
method, and the table of interfaces that `main` keeps.

A `reconcile` sees an `Env`: a snapshot of what the kernel lets it read and a fault plan
that says which of its netlink calls fail. `select_router` reads the NUD state of one
router after another, so these calls are numbered. `link_lookup` and `get_routes` are not
guarded in the source, and `reconcile` can end in an exception.

Log lines and the reasons they give are left out. `trace` records newest first what the
daemon did and is read by no method.
-/

namespace V4WithV6Nh.HostDaemon

/-- `RT_PROTO`. -/
def RT_PROTO : ℕ := 199

/-- `NUD_PERMANENT`. -/
def NUD_PERMANENT : ℕ := 0x80

/-! ### State -/

/-- The netlink calls of one `reconcile`. -/
inductive Call
  | linkLookup
  | getRoutes4
  | getRoutes6
  /-- The NUD state of the `k`-th default route that `select_router` looks at. -/
  | nudState (k : ℕ)
  /-- The NUD state of the selected router. -/
  | nudStateSelected
  | routerLladdr
  | neighborPresent
  | routeReplace
  | routeDel
  | neighReplace
  | neighDel
deriving DecidableEq

/-- What the daemon reads and depends on during one `reconcile`. -/
structure Env extends Snapshot where
  fault : Call → Option NetlinkError

/-- What the daemon does, with the error a request was answered with. -/
inductive Effect
  | kicked (iface : Text) (gw : IPv6)
  | replacedRoute (iface : Text) (gw : IPv6) (result : Option NetlinkError)
  | deletedRoute (iface : Text) (result : Option NetlinkError)
  | replacedNeigh (iface mac : Text) (result : Option NetlinkError)
  | deletedNeigh (iface : Text) (result : Option NetlinkError)
deriving DecidableEq

/-- The tables the daemon writes, and what it did. -/
structure World where
  tables : Tables
  trace : List Effect
deriving DecidableEq

/-- A managed interface. -/
structure Interface where
  name : Text
  metric : ℕ
  requireSentinel : Bool
  staticArp : Bool
  /-- `SENTINEL`, which is the same for all interfaces of a process. -/
  sentinel : Text
  index : Option ℕ
  /-- The gateway of the route the daemon remembers having installed. -/
  installedVia : Option IPv6
  /-- The MAC of the neighbour the daemon remembers having pinned. -/
  installedMac : Option Text
deriving DecidableEq

/-- The result of a method that may raise `NetlinkError`. -/
abbrev Outcome := Except NetlinkError Unit × Interface × World

namespace Interface

variable (env : Env) (i : Interface)

/-- `Interface.active`. -/
def active : Bool :=
  i.installedVia.isSome || i.installedMac.isSome

/-- The route that `_install_route` asks for. -/
def defaultRoute (gw : IPv6) : Route4 where
  table := RT_TABLE_MAIN
  dst := INADDR_ANY
  dstLen := 0
  tos := 0
  priority := i.metric
  oif := i.index
  proto := RT_PROTO
  gateway := none
  via := some gw

/-- The routes that `withdraw` asks the kernel to delete. -/
def ownRoutes : RouteFilter where
  dst := INADDR_ANY
  dstLen := 0
  oif := i.index
  priority := some i.metric
  proto := RT_PROTO

/-- The route is the interface's own: its proto-199 default at the daemon's metric. -/
def owns (r : Route4) : Bool :=
  i.index.isSome && i.ownRoutes.accepts r

/-! ### Inspection -/

/-- `Interface.sentinel_present`. -/
def sentinelPresent (t : Tables) : Except NetlinkError Bool :=
  match env.fault .getRoutes4 with
  | some e => .error e
  | none => .ok (t.fib.any fun r => decide (r.dstLen = 0 ∧ r.oif = i.index ∧
      r.proto ≠ RT_PROTO ∧ r.gateway = some i.sentinel))

/-- The first entry of the IPv6 neighbour cache for `gw` on the interface. -/
def neighbour (gw : IPv6) : Option Neigh6 :=
  env.neigh6.find? fun n => decide (some n.ifindex = i.index ∧ n.dst = some gw)

/-- `Interface.nud_state`, made as the call `c`. A dump that fails reads as no entry. -/
def nudState (c : Call) (gw : IPv6) : ℕ :=
  match env.fault c with
  | some _ => 0
  | none => ((i.neighbour env gw).map Neigh6.state).getD 0

/-- `Interface.router_lladdr`. -/
def routerLladdr (gw : IPv6) : Option Text :=
  match env.fault .routerLladdr with
  | some _ => none
  | none => (i.neighbour env gw).bind Neigh6.lladdr

/-- `PREF_RANK.get(pref, 1)`: high above medium above low, and medium if the route has no
preference or the reserved one. -/
def prefRank (pref : Option ℕ) : ℕ :=
  match pref with
  | some 1 => 2
  | some 0 => 1
  | some 3 => 0
  | _ => 1

/-- The IPv6 default routes out of the interface, in dump order. -/
def defaultRoutes6 : List Route6 :=
  env.routes6.filter fun r => decide (r.dstLen = 0 ∧ r.oif = i.index)

/-- The sort key of a router: its preference rank, then whether it is REACHABLE. -/
def routerKey (k : ℕ) (pref : Option ℕ) (gw : IPv6) : ℕ × ℕ :=
  (prefRank pref, if i.nudState env (.nudState k) gw = 0x02 then 1 else 0)

/-- One round of the loop of `select_router`, for the `k`-th default route: a router
replaces the best one so far unless its key is smaller. -/
def consider (best : Option (IPv6 × ℕ × ℕ)) (e : Route6 × ℕ) : Option (IPv6 × ℕ × ℕ) :=
  match e.1.gateway with
  | none => best
  | some gw =>
      let key := i.routerKey env e.2 e.1.pref gw
      match best with
      | none => some (gw, key)
      | some (_, bestKey) =>
          if bestKey.1 < key.1 ∨ (bestKey.1 = key.1 ∧ bestKey.2 ≤ key.2) then some (gw, key)
          else best

/-- `Interface.select_router`. -/
def selectRouter : Except NetlinkError (Option IPv6) :=
  match env.fault .getRoutes6 with
  | some e => .error e
  | none => .ok (((i.defaultRoutes6 env).zipIdx.foldl (i.consider env) none).map Prod.fst)

/-! ### Programming -/

/-- `Interface._install_route`. -/
def installRoute (gw : IPv6) (w : World) : Interface × World :=
  if i.installedVia = some gw then (i, w)
  else
    match routeReplace (env.fault .routeReplace) (i.defaultRoute gw) w.tables with
    | .ok t =>
        ({ i with installedVia := some gw },
          { w with tables := t, trace := .replacedRoute i.name gw none :: w.trace })
    | .error e => (i, { w with trace := .replacedRoute i.name gw (some e) :: w.trace })

/-- `Interface._neighbor_present`. -/
def neighborPresent (mac : Text) (t : Tables) : Bool :=
  match env.fault .neighborPresent with
  | some _ => false
  | none => t.neigh4.any fun n => decide (some n.ifindex = i.index ∧ n.dst = i.sentinel ∧
      n.state &&& NUD_PERMANENT ≠ 0 ∧ n.lladdr = some mac)

/-- The neighbour that `_pin_neighbor` asks for. `install` is called with a resolved
index. -/
def pinnedNeighbor (mac : Text) : Neigh4 where
  ifindex := i.index.getD 0
  dst := i.sentinel
  lladdr := some mac
  state := NUD_PERMANENT

/-- `Interface._pin_neighbor`. -/
def pinNeighbor (gw : IPv6) (w : World) : Interface × World :=
  match i.routerLladdr env gw with
  | none => (i, w)
  | some mac =>
      if i.installedMac = some mac ∧ i.neighborPresent env mac w.tables then (i, w)
      else
        match neighReplace (env.fault .neighReplace) (i.pinnedNeighbor mac) w.tables with
        | .ok t =>
            ({ i with installedMac := some mac },
              { w with tables := t, trace := .replacedNeigh i.name mac none :: w.trace })
        | .error e =>
            (i, { w with trace := .replacedNeigh i.name mac (some e) :: w.trace })

/-- `Interface.install`. -/
def install (gw : IPv6) (w : World) : Interface × World :=
  if i.staticArp then i.pinNeighbor env gw w else i.installRoute env gw w

/-- `Interface.withdraw`. The memory is cleared however the request is answered. -/
def withdraw (w : World) : Interface × World :=
  if i.staticArp then
    if i.installedMac = none then (i, w)
    else
      match neighDel (env.fault .neighDel) (i.index.getD 0) i.sentinel w.tables with
      | .ok t =>
          ({ i with installedMac := none },
            { w with tables := t, trace := .deletedNeigh i.name none :: w.trace })
      | .error e =>
          ({ i with installedMac := none },
            { w with trace := .deletedNeigh i.name (some e) :: w.trace })
  else
    match routeDel (env.fault .routeDel) i.ownRoutes w.tables with
    | .ok t =>
        ({ i with installedVia := none },
          { w with tables := t, trace := .deletedRoute i.name none :: w.trace })
    | .error e =>
        ({ i with installedVia := none },
          { w with trace := .deletedRoute i.name (some e) :: w.trace })

/-! ### Reconciliation -/

/-- The sentinel gate of `reconcile`. -/
def gate (t : Tables) : Except NetlinkError Bool :=
  if i.requireSentinel then i.sentinelPresent env t else .ok true

/-- `kick_nud` if the state of the selected router is not usable. -/
def solicit (gw : IPv6) (w : World) : World :=
  if nudUsable (i.nudState env .nudStateSelected gw) then w
  else { w with trace := .kicked i.name gw :: w.trace }

/-- `withdraw` if the daemon remembers having installed anything. -/
def cease (w : World) : Interface × World :=
  if i.active then i.withdraw env w else (i, w)

/-- `Interface.reconcile` after the interface was found. -/
def reconcilePresent (w : World) : Outcome :=
  match i.gate env w.tables with
  | .error e => (.error e, i, w)
  | .ok false => (.ok (), i.cease env w)
  | .ok true =>
      match i.selectRouter env with
      | .error e => (.error e, i, w)
      | .ok none => (.ok (), i.cease env w)
      | .ok (some gw) => (.ok (), i.install env gw (i.solicit env gw w))

/-- `Interface.resolve_index`. -/
def resolveIndex : Interface :=
  { i with index := linkLookup env.links i.name }

/-- `Interface.reconcile`. -/
def reconcile (w : World) : Outcome :=
  match env.fault .linkLookup with
  | some e => (.error e, i, w)
  | none =>
      match (i.resolveIndex env).index with
      | none =>
          (.ok (), { i.resolveIndex env with installedVia := none, installedMac := none }, w)
      | some _ => (i.resolveIndex env).reconcilePresent env w

end Interface

/-! ### The table of interfaces -/

/-- What `main` passes to every `Interface`. -/
structure Config where
  metric : ℕ
  requireSentinel : Bool
  staticArp : Bool
  sentinel : Text

/-- `Interface.__init__`. -/
def Config.interface (c : Config) (name : Text) : Interface where
  name := name
  metric := c.metric
  requireSentinel := c.requireSentinel
  staticArp := c.staticArp
  sentinel := c.sentinel
  index := none
  installedVia := none
  installedMac := none

/-- The daemon: its interfaces, and what they write. -/
structure Daemon where
  ifaces : OrderedDict Text Interface
  world : World

/-- `refresh`: an `Interface` for every name that has none, in the order in which the set
of names is iterated. -/
def Daemon.refresh (c : Config) (names : List Text) (d : Daemon) : Daemon :=
  { d with
    ifaces := names.foldl
      (fun ifaces n =>
        match ifaces.get n with
        | some _ => ifaces
        | none => ifaces.set n (c.interface n))
      d.ifaces }

/-- `i.reconcile()` for the interface of that name. -/
def Daemon.reconcile (env : Env) (name : Text) (d : Daemon) : Daemon :=
  match d.ifaces.get name with
  | none => d
  | some i =>
      let (_, i', w') := i.reconcile env d.world
      { ifaces := d.ifaces.set name i', world := w' }

end V4WithV6Nh.HostDaemon
