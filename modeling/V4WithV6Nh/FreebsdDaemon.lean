import V4WithV6Nh.RoutingSocket

/-!
# The FreeBSD Host Daemon

`v4gwd.c` for FreeBSD installs an IPv4 default route through the IPv6 default router of the
interface, with `RTM_ADD`, `RTM_CHANGE` and `RTM_DELETE` on a routing socket. This module is
the daemon function by function: the router selection, the two gates, the static fallback,
and `reconcile`.

A scan that cannot read its table finds nothing, as over an empty table. `main`'s reading of
its arguments gives a `Config`. `PollLoop` and `PollingDaemons` have the loop around
`reconcile`; the log lines are left out.
-/

namespace V4WithV6Nh.FreebsdDaemon

/-- `SENTINEL_ADDR`. -/
def SENTINEL_ADDR : InAddr := 0xc000000b

/-- The text that `sentinel_in_file` looks for. -/
def SENTINEL_TEXT : Text := "192.0.0.11".toList

/-- What `main` makes of the arguments. -/
structure Config where
  ifname : Text
  /-- `-r`. -/
  requireSentinelRoute : Bool
  /-- `-f`. -/
  sentinelFile : Option Text
  /-- `main` does not take both. -/
  one_gate : ¬ (requireSentinelRoute = true ∧ sentinelFile.isSome = true)

/-- `struct in6_defrouter`, an entry of the default router list. -/
structure Defrouter where
  rtaddr : IPv6
  flags : BitVec 8
  ifIndex : ℕ
deriving DecidableEq

/-- What the daemon reads and writes: the kernel's tables and the files. -/
structure World where
  ifNametoindex : Text → ℕ
  /-- `ICMPV6CTL_ND6_DRLIST`. -/
  drlist : List Defrouter
  /-- `NET_RT_DUMP` of `AF_INET6`. -/
  routes6 : List RtMsg
  /-- `NET_RT_DUMP` of `AF_INET`. -/
  routes4 : List RtMsg
  /-- The content of each file. -/
  files : Text → Option Text

/-- The tables that the daemon scans. -/
inductive Table
  | drlist
  | routes6
  | routes4
deriving DecidableEq

/-- The messages that the daemon sends. -/
inductive RtmType
  | add
  | change
  | delete
deriving DecidableEq

/-- Which calls of one pass fail. A write that fails has its own error. -/
structure Calls where
  /-- `sysctl` on the table, or the allocation for it. -/
  sysctl : Table → Bool
  fopen : Bool
  write : RtmType → Option ℕ

/-- No call fails. -/
def Calls.succeed : Calls := ⟨fun _ => false, false, fun _ => none⟩

/-- The state of a running daemon. -/
structure Daemon where
  cfg : Config
  ifindex : ℕ
  routeInstalled : Bool
  installedGw : IPv6

/-- The daemon when it starts. -/
def Daemon.fresh (cfg : Config) (ifindex : ℕ) : Daemon where
  cfg := cfg
  ifindex := ifindex
  routeInstalled := false
  installedGw := 0

/-! ### Selection -/

/-- `ND_RA_FLAG_RTPREF_MASK`. -/
def ND_RA_FLAG_RTPREF_MASK : BitVec 8 := 0x18

/-- `ND_RA_FLAG_RTPREF_HIGH`. -/
def ND_RA_FLAG_RTPREF_HIGH : BitVec 8 := 0x08

/-- `ND_RA_FLAG_RTPREF_MEDIUM`. -/
def ND_RA_FLAG_RTPREF_MEDIUM : BitVec 8 := 0x00

/-- `ND_RA_FLAG_RTPREF_LOW`. -/
def ND_RA_FLAG_RTPREF_LOW : BitVec 8 := 0x18

/-- `pref_rank`. -/
def prefRank (raflags : BitVec 8) : ℤ :=
  if raflags &&& ND_RA_FLAG_RTPREF_MASK = ND_RA_FLAG_RTPREF_HIGH then 2
  else if raflags &&& ND_RA_FLAG_RTPREF_MASK = ND_RA_FLAG_RTPREF_MEDIUM then 1
  else if raflags &&& ND_RA_FLAG_RTPREF_MASK = ND_RA_FLAG_RTPREF_LOW then 0
  else -1

/-- One round of the loop of `select_router`, with the best router so far, once one is
found, and `best_rank`. -/
def considerRouter (ifindex : ℕ) (best : Option IPv6 × ℤ) (dr : Defrouter) :
    Option IPv6 × ℤ :=
  if dr.ifIndex ≠ ifindex then best
  else
    let rank := prefRank dr.flags
    if rank < best.2 then best
    else
      match best.1 with
      | some a => if rank = best.2 ∧ a ≤ dr.rtaddr then best else (some dr.rtaddr, rank)
      | none => (some dr.rtaddr, rank)

/-- `select_router`. -/
def selectRouter (ifindex : ℕ) (drlist : List Defrouter) : Option IPv6 :=
  (drlist.foldl (considerRouter ifindex) (none, -1)).1

/-- What `static_default_router` makes of one message; `none` is `continue`. -/
def staticRouterOf (ifindex : ℕ) (rtm : RtMsg) : Option IPv6 :=
  if rtm.rtmVersion ≠ RTM_VERSION then none
  else if rtm.rtmIndex ≠ ifindex then none
  else if rtm.rtmFlags &&& (RTF_GATEWAY ||| RTF_STATIC) ≠ RTF_GATEWAY ||| RTF_STATIC then none
  else
    match rtm.dst, rtm.gateway with
    | some (.inet6 d6), some (.inet6 g6) =>
        if d6 ≠ 0 then none else some (stripEmbeddedScope g6)
    | _, _ => none

/-- `static_default_router`. -/
def staticDefaultRouter (ifindex : ℕ) (routes6 : List RtMsg) : Option IPv6 :=
  routes6.findSome? (staticRouterOf ifindex)

/-! ### The default route -/

/-- `fill_gateway`: a link-local address gets the interface index into bytes 2 and 3. -/
def fillGateway (ifindex : ℕ) (gw : IPv6) : IPv6 :=
  if gw >>> 118 = 0x3fa#128 ∨ (gw >>> 120 = 0xff#128 ∧ (gw >>> 112) &&& 0xf#128 = 2#128) then
    (gw &&& ~~~(0xffff#128 <<< 96)) ||| ((BitVec.ofNat 16 ifindex).setWidth 128 <<< 96)
  else gw

/-- The message of `route_msg`, as which the kernel shows the route. -/
def routeRow (ifindex : ℕ) (gw : IPv6) : RtMsg where
  rtmVersion := RTM_VERSION
  rtmFlags := RTF_UP ||| RTF_GATEWAY ||| RTF_STATIC
  rtmIndex := ifindex % 2 ^ 16
  dst := some (.inet 0)
  gateway := some (.inet6 (fillGateway ifindex gw))
  netmask := some (.inet 0)

/-- `route_msg`: its result, and the IPv4 routes afterwards. -/
def routeMsg (calls : Calls) (ifindex : ℕ) (type : RtmType) (gw : IPv6)
    (routes4 : List RtMsg) : ℤ × List RtMsg :=
  match calls.write type with
  | some e => (-(e : ℤ), routes4)
  | none =>
      match type with
      | .add => rtmAdd (routeRow ifindex gw) routes4
      | .change => rtmChange (routeRow ifindex gw) routes4
      | .delete => rtmDelete (routeRow ifindex gw) routes4

/-- `install`. -/
def install (calls : Calls) (d : Daemon) (gw : IPv6) (w : World) : Daemon × World :=
  if d.routeInstalled ∧ d.installedGw = gw then (d, w)
  else
    let sent := routeMsg calls d.ifindex (if d.routeInstalled then .change else .add) gw w.routes4
    let r :=
      if ¬ d.routeInstalled ∧ (sent.1 = -(EEXIST : ℤ) ∨ sent.1 = -(EINVAL : ℤ)) then
        routeMsg calls d.ifindex .change gw sent.2
      else sent
    if r.1 < 0 then (d, { w with routes4 := r.2 })
    else ({ d with routeInstalled := true, installedGw := gw }, { w with routes4 := r.2 })

/-- `withdraw`. -/
def withdraw (calls : Calls) (d : Daemon) (w : World) : Daemon × World :=
  if ¬ d.routeInstalled then (d, w)
  else
    let r := routeMsg calls d.ifindex .delete d.installedGw w.routes4
    ({ d with routeInstalled := false }, { w with routes4 := r.2 })

/-! ### The gates -/

/-- `sentinel_in_file`. -/
def sentinelInFile (calls : Calls) (files : Text → Option Text) (sentinelFile : Text) : Bool :=
  match (if calls.fopen then none else files sentinelFile).bind (fgets 64) with
  | none => false
  | some buf => SENTINEL_TEXT.isPrefixOf buf

/-- Whether `sentinel_in_fib` stops at one message. -/
def isSentinelRoute (rtm : RtMsg) : Bool :=
  if rtm.rtmVersion ≠ RTM_VERSION then false
  else
    match rtm.dst, rtm.gateway with
    | some (.inet dst), some (.inet gw) =>
        dst == 0 && rtm.rtmFlags &&& RTF_GATEWAY != 0 && gw == SENTINEL_ADDR
    | _, _ => false

/-- `sentinel_in_fib`. -/
def sentinelInFib (routes4 : List RtMsg) : Bool := routes4.any isSentinelRoute

/-! ### Reconciliation -/

/-- A table as `sysctl` returns it. -/
def sysctl {α : Type} (calls : Calls) (table : Table) (rows : List α) : List α :=
  if calls.sysctl table then [] else rows

/-- The two gates of `reconcile`. -/
def gate (calls : Calls) (cfg : Config) (w : World) : Bool :=
  (match cfg.sentinelFile with
    | some sentinelFile => sentinelInFile calls w.files sentinelFile
    | none => true) &&
  (!cfg.requireSentinelRoute || sentinelInFib (sysctl calls .routes4 w.routes4))

/-- The router that `reconcile` finds: the selected one, or a static one. -/
def nextHop (calls : Calls) (ifindex : ℕ) (w : World) : Option IPv6 :=
  (selectRouter ifindex (sysctl calls .drlist w.drlist)).or
    (staticDefaultRouter ifindex (sysctl calls .routes6 w.routes6))

/-- `reconcile`. -/
def reconcile (calls : Calls) (d : Daemon) (w : World) : Daemon × World :=
  let d := { d with ifindex := w.ifNametoindex d.cfg.ifname }
  if d.ifindex = 0 then ({ d with routeInstalled := false }, w)
  else if ¬ gate calls d.cfg w then withdraw calls d w
  else
    match nextHop calls d.ifindex w with
    | some gw => install calls d gw w
    | none => withdraw calls d w

end V4WithV6Nh.FreebsdDaemon
