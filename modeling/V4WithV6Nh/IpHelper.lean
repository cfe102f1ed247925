import V4WithV6Nh.RoutingSocket

/-!
# The IP Helper API

The Windows service reads the forwarding and neighbour tables as lists of rows and changes
one row of the IPv4 neighbour table at a time. A call returns `NO_ERROR` or an error and
changes nothing when it fails.

`IpHelper` is what the three calls that change the table do when they succeed, and what
the service relies on. A row is addressed by its interface and its address. As in the ARP
table, `byDaemon` says who put an entry there, and nothing reads it.
-/

namespace V4WithV6Nh

/-- `NO_ERROR`. -/
def NO_ERROR : ℕ := 0

/-- `ERROR_NOT_FOUND`. -/
def ERROR_NOT_FOUND : ℕ := 1168

/-- `ERROR_OBJECT_ALREADY_EXISTS`. -/
def ERROR_OBJECT_ALREADY_EXISTS : ℕ := 5010

/-- The error of a call that fails. -/
structure Failure where
  code : ℕ
  code_ne : code ≠ NO_ERROR

/-- `SOCKADDR_INET`. -/
inductive SockaddrInet
  | ipv4 (addr : InAddr)
  | ipv6 (addr : IPv6)
  | unspec
deriving DecidableEq

/-- `NL_NEIGHBOR_STATE`. -/
inductive NlnsState
  | unreachable
  | incomplete
  | probe
  | delay
  | stale
  | reachable
  | permanent
deriving DecidableEq

/-- `MIB_IPFORWARD_ROW2`. -/
structure ForwardRow where
  interfaceLuid : ℕ
  prefixAddr : SockaddrInet
  prefixLength : ℕ
  nextHop : SockaddrInet
  metric : ℕ
deriving DecidableEq

/-- `MIB_IPNET_ROW2`. The length of `physicalAddress` is `PhysicalAddressLength`. -/
structure NetRow where
  interfaceLuid : ℕ
  address : SockaddrInet
  physicalAddress : List UInt8
  state : NlnsState
deriving DecidableEq

/-- A row of the IPv4 neighbour table, and who put it there. -/
structure NetEntry where
  row : NetRow
  byDaemon : Bool
deriving DecidableEq

/-- The entry has the interface and the address of a row. -/
def NetEntry.SameKey (row : NetRow) (x : NetEntry) : Prop :=
  x.row.interfaceLuid = row.interfaceLuid ∧ x.row.address = row.address

instance (row : NetRow) (x : NetEntry) : Decidable (x.SameKey row) :=
  inferInstanceAs (Decidable (_ ∧ _))

/-- The calls that change the IPv4 neighbour table, when they succeed. -/
structure IpHelper where
  delete : NetRow → List NetEntry → List NetEntry
  create : NetRow → List NetEntry → List NetEntry
  set : NetRow → List NetEntry → List NetEntry
  /-- `DeleteIpNetEntry2` removes what there is for the address. -/
  mem_delete : ∀ row table x, x ∈ delete row table ↔ x ∈ table ∧ ¬ x.SameKey row
  /-- `CreateIpNetEntry2` adds the row. -/
  mem_create : ∀ row table x, x ∈ create row table ↔ x = ⟨row, true⟩ ∨ x ∈ table
  /-- `SetIpNetEntry2` leaves the row as the only one for its address. -/
  mem_set : ∀ row table x,
    x ∈ set row table ↔ x = ⟨row, true⟩ ∨ x ∈ table ∧ ¬ x.SameKey row

/-- Carry out a change that may be answered with a failure. -/
def attempt (fault : Option Failure) (change : ℕ × List NetEntry) (table : List NetEntry) :
    ℕ × List NetEntry :=
  match fault with
  | some e => (e.code, table)
  | none => change

namespace IpHelper

/-- `DeleteIpNetEntry2`. -/
def deleteIpNetEntry2 (I : IpHelper) (fault : Option Failure) (row : NetRow)
    (table : List NetEntry) : ℕ × List NetEntry :=
  attempt fault
    (if ∃ x ∈ table, x.SameKey row then (NO_ERROR, I.delete row table)
      else (ERROR_NOT_FOUND, table))
    table

/-- `CreateIpNetEntry2`. -/
def createIpNetEntry2 (I : IpHelper) (fault : Option Failure) (row : NetRow)
    (table : List NetEntry) : ℕ × List NetEntry :=
  attempt fault
    (if ∃ x ∈ table, x.SameKey row then (ERROR_OBJECT_ALREADY_EXISTS, table)
      else (NO_ERROR, I.create row table))
    table

/-- `SetIpNetEntry2`. -/
def setIpNetEntry2 (I : IpHelper) (fault : Option Failure) (row : NetRow)
    (table : List NetEntry) : ℕ × List NetEntry :=
  attempt fault
    (if ∃ x ∈ table, x.SameKey row then (NO_ERROR, I.set row table)
      else (ERROR_NOT_FOUND, table))
    table

variable {I : IpHelper} {row : NetRow} {table : List NetEntry} {x : NetEntry}

/-- A deletion that does not fail leaves nothing for the address, whatever it answers. -/
theorem mem_deleteIpNetEntry2 :
    x ∈ (I.deleteIpNetEntry2 none row table).2 ↔ x ∈ table ∧ ¬ x.SameKey row := by
  rw [deleteIpNetEntry2, attempt]
  split
  · exact I.mem_delete row table x
  · rename_i hnone
    exact ⟨fun hx => ⟨hx, fun hkey => hnone ⟨x, hx, hkey⟩⟩, fun h => h.1⟩

/-- A creation that does not fail, of a row with a new address. -/
theorem createIpNetEntry2_of_new (hnew : ∀ x ∈ table, ¬ x.SameKey row) :
    I.createIpNetEntry2 none row table = (NO_ERROR, I.create row table) := by
  rw [createIpNetEntry2, attempt]
  exact if_neg fun ⟨x, hx, hkey⟩ => hnew x hx hkey

end IpHelper

end V4WithV6Nh
