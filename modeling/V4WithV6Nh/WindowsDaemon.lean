import Mathlib.Logic.Function.Basic
import V4WithV6Nh.IpHelper

/-!
# The Windows Host Service

`v4gwd.c` pins a permanent IPv4 neighbour entry for the sentinel gateway with the MAC of
the IPv6 default router. This module is the service function by function: the table scans,
the gate, the map of router MACs in the registry, and `reconcile`.

A scan that cannot read its table finds nothing, as over an empty table. `ServiceWorker` has
the worker's loop with its callbacks and the stop request; how a service registers itself, the
dry run and the log lines are left out.
-/

namespace V4WithV6Nh.WindowsDaemon

/-- `SENTINEL_HOST`. -/
def SENTINEL_HOST : InAddr := 0xc000000b

/-- The arguments of the service. -/
structure Config where
  /-- `g_ifarg`. -/
  ifarg : Text
  /-- `-r`. -/
  requireSentinelRoute : Bool

/-- What the service reads and writes: the tables and the registry. -/
structure World where
  /-- `ConvertInterfaceAliasToLuid`. -/
  aliasToLuid : Text → Option ℕ
  /-- `ConvertInterfaceIndexToLuid`. -/
  indexToLuid : ℕ → Option ℕ
  /-- `ConvertInterfaceLuidToIndex`. -/
  luidToIndex : ℕ → Option ℕ
  /-- The `PhysicalAddress` of `GetIfEntry2`. -/
  ifEntry : ℕ → Option (List UInt8)
  /-- `GetIpForwardTable2` of `AF_INET6`. -/
  forward6 : List ForwardRow
  /-- `GetIpForwardTable2` of `AF_INET`. -/
  forward4 : List ForwardRow
  /-- `GetIpNetTable2` of `AF_INET6`. -/
  net6 : List NetRow
  /-- `GetIpNetTable2` of `AF_INET`. -/
  net4 : List NetEntry
  /-- The string values of the key `ROUTER_CACHE_KEY`. -/
  registry : Text → Option Text

/-- The tables that the service scans. -/
inductive Table
  | forward6
  | forward4
  | net6
  | net4
deriving DecidableEq

/-- Which calls of one pass fail. -/
structure Calls where
  /-- `GetIpForwardTable2` or `GetIpNetTable2` for the table. -/
  getTable : Table → Bool
  getIfEntry2 : Bool
  deleteIpNetEntry2 : Option Failure
  createIpNetEntry2 : Option Failure
  setIpNetEntry2 : Option Failure
  regGetValue : Bool
  regSetKeyValue : Bool

/-- No call fails. -/
def Calls.succeed : Calls := ⟨fun _ => false, false, none, none, none, false, false⟩

/-- The state of a running service. -/
structure Daemon where
  cfg : Config
  /-- `g_luid`, once `g_luid_valid`. -/
  luid : Option ℕ
  installed : Bool
  installedMac : Mac

/-- The service when it starts. -/
def Daemon.fresh (cfg : Config) : Daemon where
  cfg := cfg
  luid := none
  installed := false
  installedMac := .replicate 6 0

/-! ### Interface -/

/-- The interface index that `wcstoul` reads from the whole of the argument. -/
def ifargIndex (ifarg : Text) : Option ℕ :=
  match number (2 ^ 32) 10 ifarg with
  | some (n, []) => if n ≠ 0 then some n else none
  | _ => none

/-- `resolve_luid`: the `g_luid` after it. -/
def resolveLuid (d : Daemon) (w : World) : Option ℕ :=
  match d.luid with
  | some luid => some luid
  | none =>
      match w.aliasToLuid d.cfg.ifarg with
      | some luid => some luid
      | none => (ifargIndex d.cfg.ifarg).bind w.indexToLuid

/-- `interface_mac`. -/
def interfaceMac (calls : Calls) (w : World) (luid : ℕ) : Option Mac :=
  if calls.getIfEntry2 then none
  else
    match w.ifEntry luid with
    | none => none
    | some physicalAddress =>
        if h : physicalAddress.length = 6 then some ⟨physicalAddress, h⟩ else none

/-! ### The router cache -/

/-- `mac_str_reg`. -/
def macStrReg (mac : Mac) : Text := bytesText upperDigit '-' mac.toList

/-- `router_cache_lookup`. The value has to fit 32 bytes with its terminating zero. -/
def routerCacheLookup (calls : Calls) (registry : Text → Option Text) (host : Mac) :
    Option Mac :=
  if calls.regGetValue then none
  else
    match registry (macStrReg host) with
    | none => none
    | some val => if 32 < val.length + 1 then none else scanBytes '-' 6 val

/-- `router_cache_put`. -/
def routerCachePut (calls : Calls) (registry : Text → Option Text) (host router : Mac) :
    Text → Option Text :=
  if routerCacheLookup calls registry host = some router then registry
  else if calls.regSetKeyValue then registry
  else Function.update registry (macStrReg host) (some (macStrReg router))

/-! ### Scans -/

/-- A table as it is returned. -/
def getTable {α : Type} (calls : Calls) (table : Table) (rows : List α) : List α :=
  if calls.getTable table then [] else rows

/-- One round of `find_default_router`, with the best router so far and its metric. -/
def considerRoute (luid : ℕ) (best : Option (IPv6 × ℕ)) (r : ForwardRow) :
    Option (IPv6 × ℕ) :=
  if r.interfaceLuid ≠ luid then best
  else if r.prefixLength ≠ 0 then best
  else
    match r.prefixAddr, r.nextHop with
    | .ipv6 _, .ipv6 gw =>
        match best with
        | none => some (gw, r.metric)
        | some b => if r.metric < b.2 then some (gw, r.metric) else some b
    | _, _ => best

/-- `find_default_router`. -/
def findDefaultRouter (luid : ℕ) (forward6 : List ForwardRow) : Option IPv6 :=
  (forward6.foldl (considerRoute luid) none).map Prod.fst

/-- What `router_lladdr` makes of one row; `none` is `continue`. -/
def lladdrOf (luid : ℕ) (gw : IPv6) (r : NetRow) : Option Mac :=
  if r.interfaceLuid ≠ luid then none
  else if r.address ≠ .ipv6 gw then none
  else if h : r.physicalAddress.length = 6 then some ⟨r.physicalAddress, h⟩
  else none

/-- `router_lladdr`. -/
def routerLladdr (luid : ℕ) (gw : IPv6) (net6 : List NetRow) : Option Mac :=
  net6.findSome? (lladdrOf luid gw)

/-- What `neighbor_present` makes of one row. -/
def presentIn (luid : ℕ) (mac : Mac) (r : NetRow) : Option Bool :=
  if r.interfaceLuid ≠ luid then none
  else if r.address ≠ .ipv4 SENTINEL_HOST then none
  else some (r.state = .permanent ∧ r.physicalAddress.length = 6 ∧
    r.physicalAddress = mac.toList)

/-- `neighbor_present`. -/
def neighborPresent (luid : ℕ) (mac : Mac) (net4 : List NetRow) : Bool :=
  (net4.findSome? (presentIn luid mac)).getD false

/-- Whether `sentinel_in_fib` stops at one row. -/
def isSentinelRoute (luid : ℕ) (r : ForwardRow) : Bool :=
  if r.interfaceLuid ≠ luid then false
  else if r.prefixLength ≠ 0 then false
  else r.nextHop = .ipv4 SENTINEL_HOST

/-- `sentinel_in_fib`. -/
def sentinelInFib (luid : ℕ) (forward4 : List ForwardRow) : Bool :=
  forward4.any (isSentinelRoute luid)

/-! ### Reconciliation -/

/-- `fill_sentinel_row`. -/
def fillSentinelRow (luid : ℕ) (mac : Option Mac) : NetRow :=
  match mac with
  | some mac => ⟨luid, .ipv4 SENTINEL_HOST, mac.toList, .permanent⟩
  | none => ⟨luid, .ipv4 SENTINEL_HOST, [], .unreachable⟩

/-- `install`. -/
def install (I : IpHelper) (calls : Calls) (d : Daemon) (luid : ℕ) (mac : Mac) (w : World) :
    Daemon × World :=
  if d.installed ∧ d.installedMac = mac ∧
      neighborPresent luid mac (getTable calls .net4 (w.net4.map NetEntry.row)) then (d, w)
  else
    let row := fillSentinelRow luid (some mac)
    let deleted := I.deleteIpNetEntry2 calls.deleteIpNetEntry2 row w.net4
    let created := I.createIpNetEntry2 calls.createIpNetEntry2 row deleted.2
    let e :=
      if created.1 = ERROR_OBJECT_ALREADY_EXISTS then
        I.setIpNetEntry2 calls.setIpNetEntry2 row created.2
      else created
    if e.1 ≠ NO_ERROR then (d, { w with net4 := e.2 })
    else ({ d with installed := true, installedMac := mac }, { w with net4 := e.2 })

/-- `withdraw`. -/
def withdraw (I : IpHelper) (calls : Calls) (d : Daemon) (luid : ℕ) (w : World) :
    Daemon × World :=
  if ¬ d.installed then (d, w)
  else
    let deleted :=
      I.deleteIpNetEntry2 calls.deleteIpNetEntry2 (fillSentinelRow luid none) w.net4
    ({ d with installed := false }, { w with net4 := deleted.2 })

/-- The gate of `reconcile`. -/
def gate (calls : Calls) (cfg : Config) (luid : ℕ) (w : World) : Bool :=
  !cfg.requireSentinelRoute || sentinelInFib luid (getTable calls .forward4 w.forward4)

/-- The MAC of the default router, if `reconcile` resolves it. -/
def resolvedMac (calls : Calls) (luid : ℕ) (w : World) : Option Mac :=
  (findDefaultRouter luid (getTable calls .forward6 w.forward6)).bind fun gw =>
    routerLladdr luid gw (getTable calls .net6 w.net6)

/-- `reconcile` on a resolved and present interface. -/
def reconcileOn (I : IpHelper) (calls : Calls) (d : Daemon) (luid : ℕ) (w : World) :
    Daemon × World :=
  if ¬ gate calls d.cfg luid w then withdraw I calls d luid w
  else
    match resolvedMac calls luid w with
    | some mac =>
        let r := install I calls d luid mac w
        match interfaceMac calls w luid with
        | some host =>
            (r.1, { r.2 with registry := routerCachePut calls r.2.registry host mac })
        | none => r
    | none =>
        match (interfaceMac calls w luid).bind (routerCacheLookup calls w.registry) with
        | some cached => install I calls d luid cached w
        | none => withdraw I calls d luid w

/-- `reconcile`. -/
def reconcile (I : IpHelper) (calls : Calls) (d : Daemon) (w : World) : Daemon × World :=
  match resolveLuid d w with
  | none => ({ d with installed := false }, w)
  | some luid =>
      let d := { d with luid := some luid }
      match w.luidToIndex luid with
      | none => ({ d with installed := false }, w)
      | some _ => reconcileOn I calls d luid w

/-- `withdraw` at the end of the worker. -/
def shutdown (I : IpHelper) (calls : Calls) (d : Daemon) (w : World) : World :=
  match d.luid with
  | some luid => (withdraw I calls d luid w).2
  | none => w

end V4WithV6Nh.WindowsDaemon
