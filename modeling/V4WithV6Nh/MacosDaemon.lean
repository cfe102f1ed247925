import Mathlib.Logic.Function.Basic
import V4WithV6Nh.RoutingSocket

/-!
# The macOS Host Daemon

`v4gwd-arp.c` keeps a permanent ARP entry for the sentinel gateway with the MAC of the
IPv6 default router. This module is the daemon function by function: the table scans, the
two gates, the map of router MACs in `/var/db/v4gwd-arp`, and `reconcile`.

A scan that cannot read its table finds nothing, as over an empty table. A path that does
not fit its buffer does not occur: own-MAC paths have 36 characters. `main`'s reading of
its arguments gives a `Config`. `PollLoop` and `PollingDaemons` have the loop around
`reconcile`, and `DryRun` has `dry_run_report`; the log lines are left out.
-/

namespace V4WithV6Nh.MacosDaemon

/-- What `main` makes of the arguments and the environment. -/
structure Config where
  ifname : Text
  /-- `-r`. -/
  requireSentinelRoute : Bool
  /-- `-f`. -/
  sentinelFile : Option Text
  sentinelStr : Text
  sentinelAddr : InAddr
  /-- `main` does not take both. -/
  one_gate : ¬ (requireSentinelRoute = true ∧ sentinelFile.isSome = true)

/-- An address of `getifaddrs`. -/
structure Ifaddr where
  ifaName : Text
  ifaAddr : Option Sockaddr

/-- What the daemon reads and writes: the kernel's tables and the files. -/
structure World where
  ifNametoindex : Text → ℕ
  ifaddrs : List Ifaddr
  /-- `NET_RT_DUMP` of `AF_INET6`. -/
  routes6 : List RtMsg
  /-- `NET_RT_FLAGS`, `RTF_LLINFO` of `AF_INET6`. -/
  neighbors6 : List RtMsg
  /-- `NET_RT_DUMP` of `AF_INET`. -/
  routes4 : List RtMsg
  /-- `NET_RT_FLAGS`, `RTF_LLINFO` of `AF_INET`. -/
  arp : List ArpEntry
  /-- The content of each file. -/
  files : Text → Option Text

/-- The tables that the daemon scans. -/
inductive Table
  | routes6
  | neighbors6
  | routes4
  | arp
deriving DecidableEq

/-- Which calls of one pass fail. -/
structure Calls where
  /-- `sysctl` on the table, or the allocation for it. -/
  sysctl : Table → Bool
  getifaddrs : Bool
  /-- `fopen` of the path. -/
  fopen : Text → Bool
  /-- After how many bytes the write of the temporary file is cut short, if it is. -/
  written : Option ℕ
  rename : Bool
  /-- `arp -s`. -/
  arpS : Bool
  /-- `arp -d`. -/
  arpD : Bool

/-- No call fails. -/
def Calls.succeed : Calls :=
  ⟨fun _ => false, false, fun _ => false, none, false, false, false⟩

/-- The state of a running daemon. -/
structure Daemon where
  cfg : Config
  arpInstalled : Bool
  installedMac : Mac

/-- The daemon when it starts. -/
def Daemon.fresh (cfg : Config) : Daemon where
  cfg := cfg
  arpInstalled := false
  installedMac := .replicate 6 0

/-! ### Scans -/

/-- A table as `sysctl` returns it. -/
def sysctl (calls : Calls) (table : Table) (rows : List RtMsg) : List RtMsg :=
  if calls.sysctl table then [] else rows

/-- What `find_default_router` makes of one message; `none` is `continue`. -/
def defaultRouterOf (ifindex : ℕ) (rtm : RtMsg) : Option IPv6 :=
  if rtm.rtmVersion ≠ RTM_VERSION then none
  else if rtm.rtmFlags &&& (RTF_GATEWAY ||| RTF_UP) ≠ RTF_GATEWAY ||| RTF_UP then none
  else if rtm.rtmIndex ≠ ifindex then none
  else
    match rtm.dst, rtm.gateway with
    | some (.inet6 d6), some (.inet6 g6) =>
        if d6 ≠ 0 then none else some (stripEmbeddedScope g6)
    | _, _ => none

/-- `find_default_router`. -/
def findDefaultRouter (ifindex : ℕ) (routes6 : List RtMsg) : Option IPv6 :=
  routes6.findSome? (defaultRouterOf ifindex)

/-- What `router_lladdr` makes of one message. -/
def lladdrOf (ifindex : ℕ) (gw : IPv6) (rtm : RtMsg) : Option Mac :=
  if rtm.rtmVersion ≠ RTM_VERSION then none
  else if rtm.rtmIndex ≠ ifindex then none
  else
    match rtm.dst, rtm.gateway with
    | some (.inet6 d6), some (.link lladdr) =>
        if stripEmbeddedScope d6 ≠ gw then none
        else if h : lladdr.length = 6 then some ⟨lladdr, h⟩ else none
    | _, _ => none

/-- `router_lladdr`. -/
def routerLladdr (ifindex : ℕ) (gw : IPv6) (neighbors6 : List RtMsg) : Option Mac :=
  neighbors6.findSome? (lladdrOf ifindex gw)

/-- What `arp_entry_present` makes of one message. -/
def presentIn (ifindex : ℕ) (sentinelAddr : InAddr) (mac : Mac) (rtm : RtMsg) : Option Bool :=
  if rtm.rtmVersion ≠ RTM_VERSION then none
  else if rtm.rtmIndex ≠ ifindex then none
  else
    match rtm.dst, rtm.gateway with
    | some (.inet dst), some (.link lladdr) =>
        if dst ≠ sentinelAddr then none
        else some (lladdr.length = 6 ∧ lladdr = mac.toList ∧ rtm.rtmFlags &&& RTF_STATIC ≠ 0)
    | _, _ => none

/-- `arp_entry_present`. -/
def arpEntryPresent (ifindex : ℕ) (sentinelAddr : InAddr) (mac : Mac) (arp : List RtMsg) :
    Bool :=
  (arp.findSome? (presentIn ifindex sentinelAddr mac)).getD false

/-- Whether `sentinel_in_fib` stops at one message. -/
def isSentinelRoute (sentinelAddr : InAddr) (rtm : RtMsg) : Bool :=
  if rtm.rtmVersion ≠ RTM_VERSION then false
  else if rtm.rtmFlags &&& RTF_GATEWAY = 0 then false
  else
    match rtm.dst, rtm.gateway with
    | some (.inet dst), some (.inet gw) => dst == 0 && gw == sentinelAddr
    | _, _ => false

/-- `sentinel_in_fib`. -/
def sentinelInFib (sentinelAddr : InAddr) (routes4 : List RtMsg) : Bool :=
  routes4.any (isSentinelRoute sentinelAddr)

/-- `iface_lladdr`. -/
def ifaceLladdr (ifaddrs : List Ifaddr) (ifn : Text) : Option Mac :=
  ifaddrs.findSome? fun ifa =>
    match ifa.ifaAddr with
    | some (.link lladdr) =>
        if ifa.ifaName ≠ ifn then none
        else if h : lladdr.length = 6 then some ⟨lladdr, h⟩ else none
    | _ => none

/-! ### Files -/

/-- `fopen` of a path for reading, and the content behind it. -/
def fopen (calls : Calls) (files : Text → Option Text) (path : Text) : Option Text :=
  if calls.fopen path then none else files path

/-- `sentinel_in_file`. -/
def sentinelInFile (calls : Calls) (files : Text → Option Text) (cfg : Config)
    (sentinelFile : Text) : Bool :=
  match (fopen calls files sentinelFile).bind (fgets 64) with
  | none => false
  | some buf => cfg.sentinelStr.isPrefixOf buf

/-- `ROUTER_CACHE_DIR`. -/
def ROUTER_CACHE_DIR : Text := "/var/db/v4gwd-arp".toList

/-- `mac_str`. -/
def macStr (mac : Mac) : Text := bytesText lowerDigit ':' mac.toList

/-- `router_cache_path`. -/
def routerCachePath (host : Mac) : Text := ROUTER_CACHE_DIR ++ '/' :: macStr host

/-- The temporary file of `router_cache_put`. -/
def routerCacheTmp (host : Mac) : Text := routerCachePath host ++ ".tmp".toList

/-- `router_cache_lookup`. -/
def routerCacheLookup (calls : Calls) (files : Text → Option Text) (host : Mac) : Option Mac :=
  match (fopen calls files (routerCachePath host)).bind (fgets 32) with
  | none => none
  | some line => scanBytes ':' 6 line

/-- `router_cache_put`. -/
def routerCachePut (calls : Calls) (files : Text → Option Text) (host router : Mac) :
    Text → Option Text :=
  if routerCacheLookup calls files host = some router then files
  else if calls.fopen (routerCacheTmp host) then files
  else
    let r := macStr router ++ ['\n']
    let content := (calls.written.map r.take).getD r
    let files := Function.update files (routerCacheTmp host) (some content)
    if calls.rename then files
    else
      Function.update (Function.update files (routerCachePath host) (some content))
        (routerCacheTmp host) none

/-! ### Reconciliation -/

/-- `install`. -/
def install (A : Arp) (calls : Calls) (d : Daemon) (mac : Mac) (w : World) : Daemon × World :=
  let ifindex := w.ifNametoindex d.cfg.ifname
  let arp := sysctl calls .arp (w.arp.map ArpEntry.msg)
  if d.arpInstalled ∧ d.installedMac = mac ∧
      arpEntryPresent ifindex d.cfg.sentinelAddr mac arp then (d, w)
  else if calls.arpS then (d, w)
  else
    ({ d with arpInstalled := true, installedMac := mac },
      { w with arp := A.set ifindex d.cfg.sentinelAddr mac w.arp })

/-- `withdraw`. Without an interface arp(8) fails, and its result is ignored. -/
def withdraw (A : Arp) (calls : Calls) (d : Daemon) (w : World) : Daemon × World :=
  if ¬ d.arpInstalled then (d, w)
  else
    let ifindex := w.ifNametoindex d.cfg.ifname
    ({ d with arpInstalled := false },
      if ifindex = 0 ∨ calls.arpD then w
      else { w with arp := A.delete ifindex d.cfg.sentinelAddr w.arp })

/-- The two gates of `reconcile`. -/
def gate (calls : Calls) (cfg : Config) (w : World) : Bool :=
  (match cfg.sentinelFile with
    | some sentinelFile => sentinelInFile calls w.files cfg sentinelFile
    | none => true) &&
  (!cfg.requireSentinelRoute || sentinelInFib cfg.sentinelAddr (sysctl calls .routes4 w.routes4))

/-- The own MAC of the interface, if `reconcile` has it. -/
def hostMac (calls : Calls) (cfg : Config) (w : World) : Option Mac :=
  if calls.getifaddrs then none else ifaceLladdr w.ifaddrs cfg.ifname

/-- The MAC of the default router, if `reconcile` resolves it. -/
def resolvedMac (calls : Calls) (cfg : Config) (w : World) : Option Mac :=
  let ifindex := w.ifNametoindex cfg.ifname
  (findDefaultRouter ifindex (sysctl calls .routes6 w.routes6)).bind fun gw =>
    routerLladdr ifindex gw (sysctl calls .neighbors6 w.neighbors6)

/-- `reconcile`. -/
def reconcile (A : Arp) (calls : Calls) (d : Daemon) (w : World) : Daemon × World :=
  if w.ifNametoindex d.cfg.ifname = 0 then ({ d with arpInstalled := false }, w)
  else if ¬ gate calls d.cfg w then withdraw A calls d w
  else
    match resolvedMac calls d.cfg w with
    | some mac =>
        let r := install A calls d mac w
        match hostMac calls d.cfg w with
        | some host => (r.1, { r.2 with files := routerCachePut calls r.2.files host mac })
        | none => r
    | none =>
        match (hostMac calls d.cfg w).bind (routerCacheLookup calls w.files) with
        | some cached => install A calls d cached w
        | none => withdraw A calls d w

end V4WithV6Nh.MacosDaemon
