import V4WithV6Nh.CText
import V4WithV6Nh.Linux

/-!
# The BSD Routing Socket

The BSD daemons read the kernel's tables with `sysctl` on `PF_ROUTE`: a dump is a list of
routing messages. An `RtMsg` is such a message with its socket addresses in the slots that
`get_rti_info` puts them in, those that say which route it is. An IPv4 address is in
network order, and an interface index of 0 stands for no interface.

The FreeBSD daemon writes the IPv4 default route, on the same socket. The macOS daemon
writes the ARP table, with arp(8). `Arp` is what the two commands do to the table and what
the daemon relies on. `byDaemon` is bookkeeping of this model: it says who put an entry
there, and nothing reads it.

Both daemons take one of the options `-r` and `-f` at most.
-/

namespace V4WithV6Nh

/-- An IPv4 address (`in_addr_t`). -/
abbrev InAddr := BitVec 32

/-- A socket address. The length of `lladdr` is `sdl_alen`. -/
inductive Sockaddr
  | inet (sinAddr : InAddr)
  | inet6 (sin6Addr : IPv6)
  | link (lladdr : List UInt8)
  | other (saFamily : ℕ)
deriving DecidableEq

/-- `RTM_VERSION`. -/
def RTM_VERSION : ℕ := 5

/-- `RTF_UP`. -/
def RTF_UP : BitVec 32 := 0x1

/-- `RTF_GATEWAY`. -/
def RTF_GATEWAY : BitVec 32 := 0x2

/-- `RTF_STATIC`. -/
def RTF_STATIC : BitVec 32 := 0x800

/-- A routing message. -/
structure RtMsg where
  rtmVersion : ℕ
  rtmFlags : BitVec 32
  rtmIndex : ℕ
  /-- The slot RTAX_DST. -/
  dst : Option Sockaddr
  /-- The slot RTAX_GATEWAY. -/
  gateway : Option Sockaddr
  /-- The slot RTAX_NETMASK, which no scan reads. -/
  netmask : Option Sockaddr
deriving DecidableEq

/-- `strip_embedded_scope`: clear bytes 2 and 3 of a link-local address. -/
def stripEmbeddedScope (a : IPv6) : IPv6 :=
  if a >>> 118 = 0x3fa#128 then a &&& ~~~(0xffff#128 <<< 96) else a

/-! ### The options of the daemons -/

section Options

variable {requireSentinelRoute : Bool} {sentinelFile : Option Text} {path : Text}

/-- With `-r` there is no state file. -/
theorem sentinelFile_of_one_gate
    (h : ¬ (requireSentinelRoute = true ∧ sentinelFile.isSome = true))
    (hr : requireSentinelRoute = true) : sentinelFile = none :=
  Option.not_isSome_iff_eq_none.mp fun hfile => h ⟨hr, hfile⟩

/-- With `-f` the FIB does not matter. -/
theorem requireSentinelRoute_of_one_gate
    (h : ¬ (requireSentinelRoute = true ∧ sentinelFile.isSome = true))
    (hfile : sentinelFile = some path) : requireSentinelRoute = false := by
  rw [hfile, Option.isSome_some, and_iff_left rfl] at h
  exact (Bool.not_eq_true _).mp h

end Options

/-! ### The IPv4 default route -/

/-- The message shows an IPv4 default route. -/
def RtMsg.isDefault4 (m : RtMsg) : Bool :=
  decide (m.dst = some (.inet 0) ∧ m.netmask = some (.inet 0))

/-- `EEXIST`. -/
def EEXIST : ℕ := 17

/-- `EINVAL`. -/
def EINVAL : ℕ := 22

/-- `RTM_ADD` of an IPv4 default route with an IPv6 gateway: 0 or a negative error, and the
routes afterwards. There is one default route at most; one with an IPv4 gateway is
answered with another error. -/
def rtmAdd (row : RtMsg) (routes4 : List RtMsg) : ℤ × List RtMsg :=
  match routes4.find? RtMsg.isDefault4 with
  | none => (0, routes4 ++ [row])
  | some old =>
      match old.gateway with
      | some (.inet _) => (-(EINVAL : ℤ), routes4)
      | _ => (-(EEXIST : ℤ), routes4)

/-- `RTM_CHANGE` of the IPv4 default route. -/
def rtmChange (row : RtMsg) (routes4 : List RtMsg) : ℤ × List RtMsg :=
  if routes4.any RtMsg.isDefault4 then (0, upsertFirst RtMsg.isDefault4 row routes4)
  else (-(ESRCH : ℤ), routes4)

/-- `RTM_DELETE` of the IPv4 default route with the gateway of the message. -/
def rtmDelete (row : RtMsg) (routes4 : List RtMsg) : ℤ × List RtMsg :=
  let isIt (m : RtMsg) : Bool := m.isDefault4 && decide (m.gateway = row.gateway)
  if routes4.any isIt then (0, routes4.eraseP isIt) else (-(ESRCH : ℤ), routes4)

/-! ### The ARP table -/

/-- An entry of the ARP table: the message that shows it, and who put it there. -/
structure ArpEntry where
  msg : RtMsg
  byDaemon : Bool
deriving DecidableEq

/-- The entry is for an address on an interface. -/
def ArpEntry.IsFor (ifindex : ℕ) (addr : InAddr) (x : ArpEntry) : Prop :=
  x.msg.rtmIndex = ifindex ∧ x.msg.dst = some (.inet addr)

instance (ifindex : ℕ) (addr : InAddr) (x : ArpEntry) : Decidable (x.IsFor ifindex addr) :=
  inferInstanceAs (Decidable (_ ∧ _))

/-- The entry is permanent. -/
def ArpEntry.IsPermanent (x : ArpEntry) : Prop := x.msg.rtmFlags &&& RTF_STATIC ≠ 0

instance (x : ArpEntry) : Decidable x.IsPermanent := inferInstanceAs (Decidable (_ ≠ _))

/-- The commands of arp(8) on one interface. -/
structure Arp where
  /-- The message that shows a permanent entry. -/
  entry : ℕ → InAddr → Mac → RtMsg
  /-- The table after `arp -s addr mac ifscope ifname`. -/
  set : ℕ → InAddr → Mac → List ArpEntry → List ArpEntry
  /-- The table after `arp -d addr ifscope ifname`. -/
  delete : ℕ → InAddr → List ArpEntry → List ArpEntry
  /-- An entry is shown with its address, its MAC and its permanence. -/
  entry_spec : ∀ ifindex addr mac, (entry ifindex addr mac).rtmVersion = RTM_VERSION ∧
    (entry ifindex addr mac).rtmIndex = ifindex ∧
    (entry ifindex addr mac).rtmFlags &&& RTF_STATIC ≠ 0 ∧
    (entry ifindex addr mac).dst = some (.inet addr) ∧
    (entry ifindex addr mac).gateway = some (.link mac.toList)
  /-- `arp -s` leaves its permanent entry as the only one for the address. -/
  mem_set : ∀ ifindex addr mac table x, x ∈ set ifindex addr mac table ↔
    x = ⟨entry ifindex addr mac, true⟩ ∨ x ∈ table ∧ ¬ x.IsFor ifindex addr
  /-- `arp -d` removes what there is for the address. -/
  mem_delete : ∀ ifindex addr table x, x ∈ delete ifindex addr table ↔
    x ∈ table ∧ ¬ x.IsFor ifindex addr

end V4WithV6Nh
