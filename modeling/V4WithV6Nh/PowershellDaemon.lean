import V4WithV6Nh.RouterSelection
import V4WithV6Nh.WindowsDaemon

/-!
# The Windows Daemon in PowerShell

`v4gwd.ps1` does with the NetTCPIP cmdlets what `v4gwd.c` does with the IP Helper API. This
module is its functions, over the same tables: a cmdlet lists the rows of a table in their
order and shows the index of a row's interface, and a link-layer address as text. The script
keeps no memory between two passes.

`Shell` is what the script relies on in the string comparison of PowerShell and in the
argument of `New-NetNeighbor`. A call that the script does not guard ends the pass with an
exception. The dry run, the loop and the log lines are left out.
-/

namespace V4WithV6Nh.PowershellDaemon

open WindowsDaemon

/-- `LinkLayerAddress` and `MacAddress`, as the cmdlets show them. -/
def linkLayerText (bytes : List UInt8) : Text := bytesText upperDigit '-' bytes

/-- Strings in PowerShell. -/
structure Shell where
  /-- `-eq` on strings, which ignores case. -/
  eq : Text → Text → Bool
  /-- The address that `New-NetNeighbor -LinkLayerAddress` reads. -/
  parse : Text → Option (List UInt8)
  eq_refl : ∀ t, eq t t = true
  eq_symm : ∀ t t', eq t t' = eq t' t
  /-- An address is read from every spelling of what the cmdlets show. -/
  parse_of_eq : ∀ t bytes, eq t (linkLayerText bytes) = true → parse t = some bytes

/-- An exception that ends a pass. -/
inductive Raised
  | newNetNeighbor
deriving DecidableEq

/-- The rows of interfaces with an index are listed with that `InterfaceIndex`. -/
def onInterface (w : World) (ifIndex luid : ℕ) : Bool :=
  decide (w.luidToIndex luid = some ifIndex)

/-- `Get-ManagedIfIndex`. -/
def getManagedIfIndex (ifarg : Text) (w : World) : Option ℕ :=
  if ifarg ≠ [] ∧ ifarg.all (fun c => (digitValue 10 c).isSome) then
    let idx := (scanDigits 10 ifarg 0).1
    if (w.indexToLuid idx).isSome then some idx else none
  else (w.aliasToLuid ifarg).bind w.luidToIndex

/-- The next hop and the metric of a row of the IPv6 table. -/
def hopOf (r : ForwardRow) : Option (IPv6 × ℕ) :=
  match r.prefixAddr, r.nextHop with
  | .ipv6 _, .ipv6 gw => some (gw, r.metric)
  | _, _ => none

/-- `Get-NetRoute` for `::/0`. -/
def defaultRoutes6 (w : World) (ifIndex : ℕ) : List (IPv6 × ℕ) :=
  (w.forward6.filter fun r =>
    onInterface w ifIndex r.interfaceLuid && r.prefixLength == 0).filterMap hopOf

/-- `Get-DefaultRouterLinkLocal`. -/
def getDefaultRouterLinkLocal (w : World) (ifIndex : ℕ) : Option IPv6 :=
  (((defaultRoutes6 w ifIndex).insertionSort fun a b => a.2 ≤ b.2).head?).map Prod.fst

/-- An address that `Get-RouterMac` does not take for unresolved. -/
def isResolved (S : Shell) (t : Text) : Bool :=
  t ≠ [] && !S.eq t "00-00-00-00-00-00".toList

/-- `Get-RouterMac`. -/
def getRouterMac (S : Shell) (w : World) (ifIndex : ℕ) (routerLinkLocal : IPv6) : Option Text :=
  ((w.net6.filter fun r => onInterface w ifIndex r.interfaceLuid &&
    r.address = .ipv6 routerLinkLocal).map fun r => linkLayerText r.physicalAddress).find?
      (isResolved S)

/-- `Get-InterfaceMac`. -/
def getInterfaceMac (w : World) (ifIndex : ℕ) : Option Text :=
  (((w.indexToLuid ifIndex).bind w.ifEntry).map linkLayerText).filter fun t => t ≠ []

/-- `Set-CachedRouterMac`. -/
def setCachedRouterMac (S : Shell) (registry : Text → Option Text) (hostMac routerMac : Text) :
    Text → Option Text :=
  if (registry hostMac).any fun cached => S.eq cached routerMac then registry
  else Function.update registry hostMac (some routerMac)

/-- `Get-SentinelNeighbor`: the first permanent entry for the sentinel on any interface. -/
def getSentinelNeighbor (net4 : List NetEntry) : Option NetEntry :=
  net4.find? fun x => x.row.address = .ipv4 SENTINEL_HOST && x.row.state = .permanent

/-- `Test-SentinelRoute`. -/
def testSentinelRoute (w : World) (ifIndex : ℕ) : Bool :=
  (w.forward4.filter fun r => onInterface w ifIndex r.interfaceLuid && r.prefixLength == 0).any
    fun r => r.nextHop = .ipv4 SENTINEL_HOST

/-- `Remove-NetNeighbor` for the sentinel. -/
def removeNetNeighbor (I : IpHelper) (w : World) (ifIndex : ℕ) : World :=
  match w.indexToLuid ifIndex with
  | none => w
  | some luid =>
      { w with net4 := (I.deleteIpNetEntry2 none (fillSentinelRow luid none) w.net4).2 }

/-- `New-NetNeighbor` for the sentinel. -/
def newNetNeighbor (I : IpHelper) (S : Shell) (w : World) (ifIndex : ℕ) (mac : Text) :
    Except Raised Unit × World :=
  match w.indexToLuid ifIndex, S.parse mac with
  | some luid, some bytes =>
      let created :=
        I.createIpNetEntry2 none ⟨luid, .ipv4 SENTINEL_HOST, bytes, .permanent⟩ w.net4
      (if created.1 = NO_ERROR then .ok () else .error .newNetNeighbor,
        { w with net4 := created.2 })
  | _, _ => (.error .newNetNeighbor, w)

/-- `Set-SentinelNeighbor`. -/
def setSentinelNeighbor (I : IpHelper) (S : Shell) (w : World) (ifIndex : ℕ) (mac : Text) :
    Except Raised Unit × World :=
  match w.net4.find? fun x => onInterface w ifIndex x.row.interfaceLuid &&
      x.row.address = .ipv4 SENTINEL_HOST with
  | some cur =>
      if cur.row.state = .permanent ∧ S.eq (linkLayerText cur.row.physicalAddress) mac then
        (.ok (), w)
      else newNetNeighbor I S (removeNetNeighbor I w ifIndex) ifIndex mac
  | none => newNetNeighbor I S w ifIndex mac

/-- `Remove-SentinelNeighbor`. -/
def removeSentinelNeighbor (I : IpHelper) (w : World) : World :=
  match (getSentinelNeighbor w.net4).bind fun cur => w.luidToIndex cur.row.interfaceLuid with
  | none => w
  | some ifIndex => removeNetNeighbor I w ifIndex

/-- The router MAC that `Invoke-Reconcile` resolves. -/
def resolvedMac (S : Shell) (w : World) (ifIndex : ℕ) : Option Text :=
  (getDefaultRouterLinkLocal w ifIndex).bind (getRouterMac S w ifIndex)

/-- The stored router MAC that `Invoke-Reconcile` falls back to. -/
def storedMac (w : World) (ifIndex : ℕ) : Option Text :=
  ((getInterfaceMac w ifIndex).bind w.registry).filter fun t => t ≠ []

/-- `Invoke-Reconcile` on a present interface. -/
def invokeReconcileOn (I : IpHelper) (S : Shell) (cfg : Config) (w : World) (ifIndex : ℕ) :
    Except Raised Unit × World :=
  if cfg.requireSentinelRoute ∧ ¬ testSentinelRoute w ifIndex then
    (.ok (), removeSentinelNeighbor I w)
  else
    match resolvedMac S w ifIndex with
    | some mac =>
        match setSentinelNeighbor I S w ifIndex mac with
        | (.error e, w) => (.error e, w)
        | (.ok (), w') =>
            match getInterfaceMac w ifIndex with
            | some hostMac =>
                (.ok (), { w' with registry := setCachedRouterMac S w'.registry hostMac mac })
            | none => (.ok (), w')
    | none =>
        match storedMac w ifIndex with
        | some cached => setSentinelNeighbor I S w ifIndex cached
        | none => (.ok (), removeSentinelNeighbor I w)

/-- `Invoke-Reconcile`. -/
def invokeReconcile (I : IpHelper) (S : Shell) (cfg : Config) (w : World) :
    Except Raised Unit × World :=
  match getManagedIfIndex cfg.ifarg w with
  | none => (.ok (), w)
  | some ifIndex => if ifIndex = 0 then (.ok (), w) else invokeReconcileOn I S cfg w ifIndex

/-- The `finally` block of the script. -/
def shutdown (I : IpHelper) (w : World) : World := removeSentinelNeighbor I w

end V4WithV6Nh.PowershellDaemon
