import V4WithV6Nh.FrameScan
import V4WithV6Nh.SockaddrWalk
import V4WithV6Nh.TableScans

/-!
# The Routing Table as the Kernel Returns It

`sysctl` returns a table as one buffer of routing messages. A message is a `struct rt_msghdr`
and its packed socket addresses, and `rtm_msglen` says where the next one begins. The scans of
the two daemons go through the buffer with pointers. Here they are over bytes, with a read
behind the end and a message of length zero as results of their own, and their counterparts
over lists of `RtMsg` are what they come to.

The members of the structures lie where the systems' headers put them, with the lowest byte of
a number first.

## Main results

* `scans_of_dump`: over every dump the six scans find what they find over the list of its
  messages, read nothing behind the end, and come to an end.
* `FreebsdDaemon.routeMsgBytes_view`: the bytes that `route_msg` writes are the message of
  `routeRow`.
-/

namespace V4WithV6Nh

/-! ### The layout -/

/-- `AF_INET`. -/
def AF_INET : ℕ := 2

/-- `AF_LINK`. -/
def AF_LINK : ℕ := 18

/-- What the two systems do not share. -/
structure Os where
  /-- `sizeof(struct rt_msghdr)` -/
  rtMsghdr : ℕ
  AF_INET6 : ℕ
  /-- The bytes that a socket address takes. -/
  size : ℕ → ℕ
  /-- How many slots are looked at. -/
  slots : ℕ
  /-- Where the socket addresses of a message begin. -/
  addrs : BitVec 32 → List UInt8 → ℕ → Option (List (Option ℕ))
  rtMsghdr_le : 16 ≤ rtMsghdr
  families : AF_INET6 ≠ AF_INET ∧ AF_INET6 ≠ AF_LINK
  slots_le : 2 ≤ slots ∧ slots ≤ RTAX_MAX
  size_pos : ∀ n, 2 ≤ size n
  addrs_packed : ∀ (mask : BitVec 32) (sas : List.Vector (Record size) (addrsBefore mask slots))
    (before after : List UInt8),
    ∃ rti, addrs mask (before ++ packed sas.toList ++ after) before.length = some rti ∧
      Slots mask slots sas.toList before after rti

/-- A socket address takes at least as many bytes as it is aligned to. -/
theorem le_padded {align : ℕ} (h : 0 < align) (n : ℕ) : align ≤ padded align n := by
  rw [padded]
  split
  · exact le_rfl
  · rename_i hn
    have hdiv : 1 ≤ (n + align - 1) / align := (Nat.one_le_div_iff h).mpr (by omega)
    exact Nat.le_mul_of_pos_left align hdiv

/-- FreeBSD on a machine with a `long` of eight bytes. -/
def freebsd : Os where
  rtMsghdr := 152
  AF_INET6 := 28
  size := padded 8
  slots := 3
  addrs := FreebsdDaemon.packedAddrs
  rtMsghdr_le := by decide
  families := by decide
  slots_le := by decide
  size_pos n := (by decide : 2 ≤ 8).trans (le_padded (by decide) n)
  addrs_packed := FreebsdDaemon.packedAddrs_packed

/-- macOS. -/
def macos : Os where
  rtMsghdr := 92
  AF_INET6 := 30
  size := padded 4
  slots := RTAX_MAX
  addrs := MacosDaemon.getRtiInfo
  rtMsghdr_le := by decide
  families := by decide
  slots_le := by decide
  size_pos n := (by decide : 2 ≤ 4).trans (le_padded (by decide) n)
  addrs_packed := MacosDaemon.getRtiInfo_packed

/-- `struct rt_msghdr`, without what is not read. -/
structure RtMsghdr where
  version : ℕ
  index : ℕ
  flags : BitVec 32
  addrs : BitVec 32

/-- `rtm->rtm_msglen` -/
def msglenAt (msg : List UInt8) : Option ℕ := (bytesAt msg 0 2).map fromLE

/-- The header of a message that has its first 16 bytes. -/
def headerOf (msg : List UInt8) : RtMsghdr where
  version := fromLE ((msg.drop 2).take 1)
  index := fromLE ((msg.drop 4).take 2)
  flags := BitVec.ofNat 32 (fromLE ((msg.drop 8).take 4))
  addrs := BitVec.ofNat 32 (fromLE ((msg.drop 12).take 4))

/-- `*rtm` -/
def headerAt (msg : List UInt8) : Option RtMsghdr :=
  if 16 ≤ msg.length then some (headerOf msg) else none

/-- `sa->sa_family` -/
def familyAt (msg : List UInt8) (p : ℕ) : Option ℕ := (bytesAt msg (p + 1) 1).map fromLE

/-- `((struct sockaddr_in *)sa)->sin_addr` -/
def inAddrAt (msg : List UInt8) (p : ℕ) : Option InAddr :=
  (bytesAt msg (p + 4) 4).map fun b => BitVec.ofNat 32 (fromBE b)

/-- `((struct sockaddr_in6 *)sa)->sin6_addr` -/
def in6AddrAt (msg : List UInt8) (p : ℕ) : Option IPv6 :=
  (bytesAt msg (p + 8) 16).map fun b => BitVec.ofNat 128 (fromBE b)

/-- `sdl->sdl_alen` -/
def alenAt (msg : List UInt8) (p : ℕ) : Option ℕ := (bytesAt msg (p + 6) 1).map fromLE

/-- `n` bytes from `LLADDR(sdl)`, which is behind the name. -/
def lladdrAt (msg : List UInt8) (p n : ℕ) : Option (List UInt8) :=
  (bytesAt msg (p + 5) 1).bind fun nlen => bytesAt msg (p + (8 + fromLE nlen)) n

/-! ### The scans -/

/-- One round of a scan: `wanted` are the tests of the header, `families` those of the two
socket addresses, and `test` is what is made of a message that has passed them. -/
def scanMessage {β : Type} (os : Os) (wanted : RtMsghdr → Bool) (families : ℕ × ℕ)
    (test : List UInt8 → RtMsghdr → ℕ → ℕ → Option (Option β)) (msg : List UInt8) :
    Option (Option β) :=
  (headerAt msg).bind fun rtm =>
    if wanted rtm then
      (os.addrs rtm.addrs msg os.rtMsghdr).bind fun rti =>
        match rti[0]?.join, rti[1]?.join with
        | some dst, some gw =>
            (familyAt msg dst).bind fun family =>
              if family = families.1 then
                (familyAt msg gw).bind fun family =>
                  if family = families.2 then test msg rtm dst gw else some none
              else some none
        | _, _ => some none
    else some none

/-- A scan of a buffer. -/
def scanDump {β : Type} (visit : List UInt8 → Option (Option β)) (buf : List UInt8) : Scanned β :=
  scanFrames msglenAt visit buf.length buf

namespace FreebsdDaemon

/-- `sentinel_in_fib`. -/
def sentinelInFibBytes (buf : List UInt8) : Scanned Unit :=
  scanDump (scanMessage freebsd (fun rtm => decide (rtm.version = RTM_VERSION))
    (AF_INET, AF_INET) fun msg rtm dst gw =>
      (inAddrAt msg dst).bind fun d =>
        if d ≠ 0 then some none
        else if rtm.flags &&& RTF_GATEWAY = 0 then some none
        else (inAddrAt msg gw).bind fun g =>
          if g = SENTINEL_ADDR then some (some ()) else some none) buf

/-- `static_default_router`. -/
def staticDefaultRouterBytes (ifindex : ℕ) (buf : List UInt8) : Scanned IPv6 :=
  scanDump (scanMessage freebsd
    (fun rtm => decide (rtm.version = RTM_VERSION ∧ rtm.index = ifindex ∧
      rtm.flags &&& (RTF_GATEWAY ||| RTF_STATIC) = RTF_GATEWAY ||| RTF_STATIC))
    (freebsd.AF_INET6, freebsd.AF_INET6) fun msg _ dst gwsa =>
      (in6AddrAt msg dst).bind fun d6 =>
        if d6 ≠ 0 then some none
        else (in6AddrAt msg gwsa).bind fun g6 => some (some (stripEmbeddedScope g6))) buf

end FreebsdDaemon

namespace MacosDaemon

/-- `find_default_router`. -/
def findDefaultRouterBytes (ifindex : ℕ) (buf : List UInt8) : Scanned IPv6 :=
  scanDump (scanMessage macos
    (fun rtm => decide (rtm.version = RTM_VERSION ∧
      rtm.flags &&& (RTF_GATEWAY ||| RTF_UP) = RTF_GATEWAY ||| RTF_UP ∧ rtm.index = ifindex))
    (macos.AF_INET6, macos.AF_INET6) fun msg _ dst gw =>
      (in6AddrAt msg dst).bind fun d6 =>
        if d6 ≠ 0 then some none
        else (in6AddrAt msg gw).bind fun g6 => some (some (stripEmbeddedScope g6))) buf

/-- `router_lladdr`. -/
def routerLladdrBytes (ifindex : ℕ) (gw : IPv6) (buf : List UInt8) : Scanned (List UInt8) :=
  scanDump (scanMessage macos
    (fun rtm => decide (rtm.version = RTM_VERSION ∧ rtm.index = ifindex))
    (macos.AF_INET6, AF_LINK) fun msg _ dst sdl =>
      (in6AddrAt msg dst).bind fun d6 =>
        if stripEmbeddedScope d6 ≠ gw then some none
        else (alenAt msg sdl).bind fun alen =>
          if alen ≠ 6 then some none else (lladdrAt msg sdl 6).map some) buf

/-- `arp_entry_present`. -/
def arpEntryPresentBytes (ifindex : ℕ) (sentinelAddr : InAddr) (mac : Mac) (buf : List UInt8) :
    Scanned Bool :=
  scanDump (scanMessage macos
    (fun rtm => decide (rtm.version = RTM_VERSION ∧ rtm.index = ifindex))
    (AF_INET, AF_LINK) fun msg rtm dst sdl =>
      (inAddrAt msg dst).bind fun d =>
        if d ≠ sentinelAddr then some none
        else (alenAt msg sdl).bind fun alen =>
          if alen ≠ 6 then some (some false)
          else (lladdrAt msg sdl 6).map fun lladdr =>
            some (decide (lladdr = mac.toList) && decide (rtm.flags &&& RTF_STATIC ≠ 0))) buf

/-- `sentinel_in_fib`. -/
def sentinelInFibBytes (sentinelAddr : InAddr) (buf : List UInt8) : Scanned Unit :=
  scanDump (scanMessage macos
    (fun rtm => decide (rtm.version = RTM_VERSION ∧ rtm.flags &&& RTF_GATEWAY ≠ 0))
    (AF_INET, AF_INET) fun msg _ dst gw =>
      (inAddrAt msg dst).bind fun d =>
        if d ≠ 0 then some none
        else (inAddrAt msg gw).bind fun g =>
          if g = sentinelAddr then some (some ()) else some none) buf

end MacosDaemon

/-! ### Messages -/

/-- A routing message: its header, and the socket addresses that `rtm_addrs` says there are. -/
structure Message (os : Os) where
  header : List UInt8
  sas : List (Record os.size)
  length_header : header.length = os.rtMsghdr
  length_sas : sas.length = addrsBefore (headerOf header).addrs RTAX_MAX
  /-- `rtm_msglen` is what the message takes. -/
  msglen : fromLE (header.take 2) = os.rtMsghdr + (packed sas).length

namespace Message

variable {os : Os}

/-- The bytes of a message. -/
def bytes (m : Message os) : List UInt8 := m.header ++ packed m.sas

/-- The header of a message. -/
def rtm (m : Message os) : RtMsghdr := headerOf m.header

/-- The socket address in a slot. -/
def record (m : Message os) (i : ℕ) : Option (Record os.size) :=
  if m.rtm.addrs.getLsbD i then m.sas[addrsBefore m.rtm.addrs i]? else none

end Message

section Sockaddrs

variable {os : Os}

/-- The family of a socket address. -/
def family (s : Record os.size) : ℕ := fromLE ((s.bytes.drop 1).take 1)

/-- The address of a socket address of IPv4. -/
def inAddr (s : Record os.size) : InAddr := BitVec.ofNat 32 (fromBE ((s.bytes.drop 4).take 4))

/-- The address of a socket address of IPv6. -/
def in6Addr (s : Record os.size) : IPv6 := BitVec.ofNat 128 (fromBE ((s.bytes.drop 8).take 16))

/-- How many bytes of a link-layer address there are. -/
def alen (s : Record os.size) : ℕ := fromLE ((s.bytes.drop 6).take 1)

/-- Where the link-layer address is. -/
def lladdrStart (s : Record os.size) : ℕ := 8 + fromLE ((s.bytes.drop 5).take 1)

/-- The link-layer address. -/
def lladdr (s : Record os.size) : List UInt8 := (s.bytes.drop (lladdrStart s)).take (alen s)

/-- What a socket address says. -/
def sockaddrOf (s : Record os.size) : Sockaddr :=
  if family s = AF_INET then .inet (inAddr s)
  else if family s = os.AF_INET6 then .inet6 (in6Addr s)
  else if family s = AF_LINK then .link (lladdr s)
  else .other (family s)

/-- A socket address has the bytes that its family calls for. -/
structure Fits (s : Record os.size) : Prop where
  inet : family s = AF_INET → 8 ≤ s.bytes.length
  inet6 : family s = os.AF_INET6 → 24 ≤ s.bytes.length
  link : family s = AF_LINK → 8 ≤ s.bytes.length ∧ lladdrStart s + alen s ≤ s.bytes.length

end Sockaddrs

namespace Message

variable {os : Os}

/-- The message as the list of messages has it. -/
def view (m : Message os) : RtMsg where
  rtmVersion := m.rtm.version
  rtmFlags := m.rtm.flags
  rtmIndex := m.rtm.index
  dst := (m.record 0).map sockaddrOf
  gateway := (m.record 1).map sockaddrOf
  netmask := (m.record 2).map sockaddrOf

/-- A message whose destination and gateway have the bytes that their families call for. -/
def WellFormed (m : Message os) : Prop := ∀ i < 2, ∀ s, m.record i = some s → Fits s

end Message

/-! ### What a scan reads -/

section Reads

variable {os : Os} {m : Message os} {msg after : List UInt8} {s : Record os.size} {p : ℕ}

/-- The socket address begins at the offset. -/
def BeginsAt (msg : List UInt8) (p : ℕ) (s : Record os.size) : Prop :=
  ∃ rest, msg.drop p = s.bytes ++ rest

theorem BeginsAt.bytesAt (h : BeginsAt msg p s) {i n : ℕ} (hle : i + n ≤ s.bytes.length) :
    bytesAt msg (p + i) n = some ((s.bytes.drop i).take n) := by
  obtain ⟨rest, hdrop⟩ := h
  rw [bytesAt_of_drop hdrop (List.cons_ne_nil _ _) hle, bytesAt_eq_some hle]

/-- The family can always be read. -/
theorem BeginsAt.familyAt (h : BeginsAt msg p s) : familyAt msg p = some (family s) := by
  have hpos := os.size_pos s.len.toNat
  rw [V4WithV6Nh.familyAt, h.bytesAt (by rw [s.length_bytes]; omega)]
  rfl

theorem BeginsAt.inAddrAt (h : BeginsAt msg p s) (hfits : Fits s) (hfamily : family s = AF_INET) :
    inAddrAt msg p = some (inAddr s) := by
  have hle := hfits.inet hfamily
  rw [V4WithV6Nh.inAddrAt, h.bytesAt (by omega)]
  rfl

theorem BeginsAt.in6AddrAt (h : BeginsAt msg p s) (hfits : Fits s)
    (hfamily : family s = os.AF_INET6) : in6AddrAt msg p = some (in6Addr s) := by
  have hle := hfits.inet6 hfamily
  rw [V4WithV6Nh.in6AddrAt, h.bytesAt (by omega)]
  rfl

theorem BeginsAt.alenAt (h : BeginsAt msg p s) (hfits : Fits s) (hfamily : family s = AF_LINK) :
    alenAt msg p = some (alen s) := by
  have hle := (hfits.link hfamily).1
  rw [V4WithV6Nh.alenAt, h.bytesAt (by omega)]
  rfl

theorem BeginsAt.lladdrAt (h : BeginsAt msg p s) (hfits : Fits s) (hfamily : family s = AF_LINK) :
    lladdrAt msg p (alen s) = some (lladdr s) := by
  obtain ⟨hhead, hle⟩ := hfits.link hfamily
  rw [V4WithV6Nh.lladdrAt, h.bytesAt (by omega), Option.bind_some]
  exact h.bytesAt hle

/-- The header of a message in front. -/
theorem headerAt_bytes (m : Message os) (after : List UInt8) :
    headerAt (m.bytes ++ after) = some m.rtm := by
  have hle := os.rtMsghdr_le
  have hlength := m.length_header
  have hfield : ∀ i n, i + n ≤ 16 →
      ((m.bytes ++ after).drop i).take n = (m.header.drop i).take n := by
    intro i n hin
    rw [Message.bytes, List.append_assoc, List.drop_append_of_le_length (by omega),
      List.take_append_of_le_length (by rw [List.length_drop]; omega)]
  have hlong : 16 ≤ (m.bytes ++ after).length := by
    rw [Message.bytes, List.length_append, List.length_append]
    omega
  rw [headerAt, if_pos hlong, headerOf, hfield 2 1 (by decide), hfield 4 2 (by decide),
    hfield 8 4 (by decide), hfield 12 4 (by decide)]
  rfl

/-- Its length is what it takes. -/
theorem msglenAt_bytes (m : Message os) (after : List UInt8) :
    msglenAt (m.bytes ++ after) = some m.bytes.length := by
  have hle := os.rtMsghdr_le
  have hlength := m.length_header
  rw [msglenAt, Message.bytes, List.append_assoc, bytesAt_append (by omega),
    bytesAt_eq_some (by omega), Option.map_some, List.drop_zero, m.msglen, List.length_append,
    hlength]

theorem bytes_ne_nil (m : Message os) : m.bytes ≠ [] := by
  have hle := os.rtMsghdr_le
  have hlength := m.length_header
  intro h
  have hnil := congrArg List.length h
  rw [Message.bytes, List.length_append, List.length_nil] at hnil
  omega

/-- **The slots of a message**: the first two socket addresses are found where they begin. -/
theorem addrs_bytes (m : Message os) (after : List UInt8) :
    ∃ rti, os.addrs m.rtm.addrs (m.bytes ++ after) os.rtMsghdr = some rti ∧ ∀ i < 2,
      (m.record i = none → rti[i]?.join = none) ∧
      ∀ s, m.record i = some s → ∃ p, rti[i]?.join = some p ∧ BeginsAt (m.bytes ++ after) p s := by
  -- the addresses behind the last slot that is looked at are part of what follows
  let k := addrsBefore m.rtm.addrs os.slots
  have hk : k ≤ m.sas.length := by
    rw [m.length_sas]
    exact (List.range_sublist.mpr os.slots_le.2).countP_le
  have htake : (m.sas.take k).length = k := by rw [List.length_take, Nat.min_eq_left hk]
  obtain ⟨rti, hrti, -, hslots⟩ := os.addrs_packed m.rtm.addrs ⟨m.sas.take k, htake⟩ m.header
    (packed (m.sas.drop k) ++ after)
  have hbytes : m.header ++ packed (m.sas.take k) ++ (packed (m.sas.drop k) ++ after) =
      m.bytes ++ after := by
    rw [Message.bytes, ← List.append_assoc, List.append_assoc m.header, ← packed_append,
      List.take_append_drop]
  rw [m.length_header] at hrti hslots
  simp only [List.Vector.toList_mk] at hrti hslots
  rw [hbytes] at hrti hslots
  refine ⟨rti, hrti, fun i hi => ?_⟩
  obtain ⟨habsent, hpresent⟩ := hslots i (Nat.lt_of_lt_of_le hi os.slots_le.1)
  rw [Message.record]
  cases hbit : m.rtm.addrs.getLsbD i with
  | false =>
      refine ⟨fun _ => by rw [habsent hbit]; rfl, fun s hs => ?_⟩
      cases hs
  | true =>
      obtain ⟨s, rest, hs, hstart, hdrop⟩ := hpresent hbit
      have hmem : m.sas[addrsBefore m.rtm.addrs i]? = some s := by
        rw [List.getElem?_take] at hs
        split at hs
        · exact hs
        · cases hs
      simp only [if_true, hmem]
      refine ⟨nofun, ?_⟩
      rintro s' ⟨⟩
      exact ⟨_, by rw [hstart]; rfl, rest, hdrop⟩

/-- The tests that a message has to pass before its socket addresses are read. -/
def Passes (m : Message os) (wanted : RtMsghdr → Bool) (families : ℕ × ℕ) : Prop :=
  wanted m.rtm = true ∧ ∃ d gw, m.record 0 = some d ∧ m.record 1 = some gw ∧
    family d = families.1 ∧ family gw = families.2

/-- **One round of a scan** over a message: nothing if it does not pass the tests, and else what
is made of its two socket addresses. -/
theorem scanMessage_bytes {β : Type} {wanted : RtMsghdr → Bool} {families : ℕ × ℕ}
    {test : List UInt8 → RtMsghdr → ℕ → ℕ → Option (Option β)} {g : Option β}
    (hpasses : ∀ b, g = some b → Passes m wanted families)
    (htest : wanted m.rtm = true → ∀ d gw p q, m.record 0 = some d → m.record 1 = some gw →
      family d = families.1 → family gw = families.2 → BeginsAt (m.bytes ++ after) p d →
      BeginsAt (m.bytes ++ after) q gw → test (m.bytes ++ after) m.rtm p q = some g) :
    scanMessage os wanted families test (m.bytes ++ after) = some g := by
  have hnone : ¬ Passes m wanted families → g = none := fun h =>
    Option.eq_none_iff_forall_ne_some.mpr fun b hb => h (hpasses b hb)
  obtain ⟨rti, hrti, hslots⟩ := addrs_bytes m after
  rw [scanMessage, headerAt_bytes, Option.bind_some]
  cases hwanted : wanted m.rtm with
  | false =>
      rw [hnone fun h => Bool.false_ne_true (hwanted.symm.trans h.1)]
      rfl
  | true =>
      rw [if_pos rfl, hrti, Option.bind_some]
      cases hd : m.record 0 with
      | none =>
          rw [(hslots 0 (by decide)).1 hd, hnone]
          rintro ⟨-, d, gw, hd', -⟩
          cases hd.symm.trans hd'
      | some d =>
          obtain ⟨p, hp, hbegins⟩ := (hslots 0 (by decide)).2 d hd
          cases hgw : m.record 1 with
          | none =>
              rw [hp, (hslots 1 (by decide)).1 hgw, hnone]
              rintro ⟨-, d', gw, -, hgw', -⟩
              cases hgw.symm.trans hgw'
          | some gw =>
              obtain ⟨q, hq, hbegins'⟩ := (hslots 1 (by decide)).2 gw hgw
              rw [hp, hq]
              simp only
              rw [hbegins.familyAt, Option.bind_some]
              by_cases hfamily : family d = families.1
              · rw [if_pos hfamily, hbegins'.familyAt, Option.bind_some]
                by_cases hfamily' : family gw = families.2
                · rw [if_pos hfamily']
                  exact htest hwanted d gw p q hd hgw hfamily hfamily' hbegins hbegins'
                · rw [if_neg hfamily', hnone]
                  rintro ⟨-, d', gw', -, hgw', -, h⟩
                  obtain rfl := Option.some.inj (hgw.symm.trans hgw')
                  exact hfamily' h
              · rw [if_neg hfamily, hnone]
                rintro ⟨-, d', gw', hd', -, h, -⟩
                obtain rfl := Option.some.inj (hd.symm.trans hd')
                exact hfamily h

/-- **The scan of a dump** is the search of the list of its messages. -/
theorem scanDump_flatMap {β : Type} {visit : List UInt8 → Option (Option β)}
    {g : Message os → Option β} {ms : List (Message os)}
    (hvisit : ∀ m ∈ ms, ∀ after, visit (m.bytes ++ after) = some (g m)) :
    scanDump visit (ms.flatMap Message.bytes) = .ofOption (ms.findSome? g) :=
  scanFrames_flatMap (fun m _ => bytes_ne_nil m) (fun m _ => msglenAt_bytes m) hvisit
    (length_le_flatMap fun m _ => bytes_ne_nil m)

end Reads

/-! ### The scans and the lists of messages -/

section Views

variable {os : Os} {m : Message os} {s : Record os.size} {i : ℕ}

theorem sockaddrOf_inet (h : family s = AF_INET) : sockaddrOf s = .inet (inAddr s) := if_pos h

theorem sockaddrOf_inet6 (h : family s = os.AF_INET6) : sockaddrOf s = .inet6 (in6Addr s) := by
  rw [sockaddrOf, if_neg (h ▸ os.families.1), if_pos h]

theorem sockaddrOf_link (h : family s = AF_LINK) : sockaddrOf s = .link (lladdr s) := by
  rw [sockaddrOf, if_neg (h ▸ by decide), if_neg (h ▸ os.families.2.symm), if_pos h]

/-- Which family a socket address is of. -/
theorem family_of_sockaddrOf {x : Sockaddr} (h : sockaddrOf s = x) :
    (∀ a, x = .inet a → family s = AF_INET) ∧ (∀ a, x = .inet6 a → family s = os.AF_INET6) ∧
      ∀ l, x = .link l → family s = AF_LINK := by
  subst h
  rw [sockaddrOf]
  split
  · rename_i h
    exact ⟨fun _ _ => h, nofun, nofun⟩
  · split
    · rename_i h
      exact ⟨nofun, fun _ _ => h, nofun⟩
    · split
      · rename_i h
        exact ⟨nofun, nofun, fun _ _ => h⟩
      · exact ⟨nofun, nofun, nofun⟩

/-- A slot with an IPv4 address is one with a socket address of that family. -/
theorem exists_inet {a : InAddr} (h : (m.record i).map sockaddrOf = some (.inet a)) :
    ∃ s, m.record i = some s ∧ family s = AF_INET := by
  obtain ⟨s, hs, hx⟩ := Option.map_eq_some_iff.mp h
  exact ⟨s, hs, (family_of_sockaddrOf hx).1 a rfl⟩

theorem exists_inet6 {a : IPv6} (h : (m.record i).map sockaddrOf = some (.inet6 a)) :
    ∃ s, m.record i = some s ∧ family s = os.AF_INET6 := by
  obtain ⟨s, hs, hx⟩ := Option.map_eq_some_iff.mp h
  exact ⟨s, hs, (family_of_sockaddrOf hx).2.1 a rfl⟩

theorem exists_link {l : List UInt8} (h : (m.record i).map sockaddrOf = some (.link l)) :
    ∃ s, m.record i = some s ∧ family s = AF_LINK := by
  obtain ⟨s, hs, hx⟩ := Option.map_eq_some_iff.mp h
  exact ⟨s, hs, (family_of_sockaddrOf hx).2.2 l rfl⟩

theorem dst_view (h : m.record 0 = some s) : m.view.dst = some (sockaddrOf s) := by
  rw [Message.view, h, Option.map_some]

theorem gateway_view (h : m.record 1 = some s) : m.view.gateway = some (sockaddrOf s) := by
  rw [Message.view, h, Option.map_some]

end Views

namespace FreebsdDaemon

variable {ms : List (Message freebsd)} {ifindex : ℕ}

/-- `sentinel_in_fib` over the buffer. -/
theorem sentinelInFibBytes_flatMap (hms : ∀ m ∈ ms, m.WellFormed) :
    sentinelInFibBytes (ms.flatMap Message.bytes) =
      .ofOption (ms.findSome? fun m => if isSentinelRoute m.view then some () else none) := by
  refine scanDump_flatMap fun m hm after => scanMessage_bytes (fun b hb => ?_) ?_
  · have hroute : isSentinelRoute m.view = true := by
      by_contra h
      rw [if_neg h] at hb
      cases hb
    rw [isSentinelRoute] at hroute
    split at hroute
    · cases hroute
    · rename_i hversion
      split at hroute
      · rename_i dst gw hdst hgw
        obtain ⟨d, hd, hfamily⟩ := exists_inet hdst
        obtain ⟨g, hg, hfamily'⟩ := exists_inet hgw
        exact ⟨decide_eq_true (not_not.mp hversion), d, g, hd, hg, hfamily, hfamily'⟩
      · cases hroute
  · intro hwanted d gw p q hd hgw hfamily hfamily' hbegins hbegins'
    have hversion : ¬ m.view.rtmVersion ≠ RTM_VERSION := not_not.mpr (of_decide_eq_true hwanted)
    have hdst : m.view.dst = some (.inet (inAddr d)) := sockaddrOf_inet hfamily ▸ dst_view hd
    have hgateway : m.view.gateway = some (.inet (inAddr gw)) :=
      sockaddrOf_inet hfamily' ▸ gateway_view hgw
    rw [hbegins.inAddrAt (hms m hm 0 (by decide) d hd) hfamily,
      hbegins'.inAddrAt (hms m hm 1 (by decide) gw hgw) hfamily']
    have hflags : m.view.rtmFlags = m.rtm.flags := rfl
    simp only [isSentinelRoute, if_neg hversion, hdst, hgateway, Option.bind_some, hflags]
    by_cases hzero : inAddr d = 0#32
    · by_cases hflag : m.rtm.flags &&& RTF_GATEWAY = 0#32 <;>
        by_cases hsentinel : inAddr gw = SENTINEL_ADDR <;> simp [hzero, hflag, hsentinel]
    · simp [hzero]

/-- `static_default_router` over the buffer. -/
theorem staticDefaultRouterBytes_flatMap (hms : ∀ m ∈ ms, m.WellFormed) :
    staticDefaultRouterBytes ifindex (ms.flatMap Message.bytes) =
      .ofOption (ms.findSome? fun m => staticRouterOf ifindex m.view) := by
  refine scanDump_flatMap fun m hm after => scanMessage_bytes (fun b hb => ?_) ?_
  · rw [staticRouterOf] at hb
    split at hb
    · cases hb
    · rename_i hversion
      split at hb
      · cases hb
      · rename_i hindex
        split at hb
        · cases hb
        · rename_i hflags
          split at hb
          · rename_i dst gw hdst hgw
            obtain ⟨d, hd, hfamily⟩ := exists_inet6 hdst
            obtain ⟨g, hg, hfamily'⟩ := exists_inet6 hgw
            exact ⟨decide_eq_true ⟨not_not.mp hversion, not_not.mp hindex, not_not.mp hflags⟩,
              d, g, hd, hg, hfamily, hfamily'⟩
          · cases hb
  · intro hwanted d gw p q hd hgw hfamily hfamily' hbegins hbegins'
    obtain ⟨hversion, hindex, hflags⟩ := of_decide_eq_true hwanted
    have hversion' : ¬ m.view.rtmVersion ≠ RTM_VERSION := not_not.mpr hversion
    have hindex' : ¬ m.view.rtmIndex ≠ ifindex := not_not.mpr hindex
    have hflags' : ¬ m.view.rtmFlags &&& (RTF_GATEWAY ||| RTF_STATIC) ≠
        RTF_GATEWAY ||| RTF_STATIC := not_not.mpr hflags
    have hdst : m.view.dst = some (.inet6 (in6Addr d)) := sockaddrOf_inet6 hfamily ▸ dst_view hd
    have hgateway : m.view.gateway = some (.inet6 (in6Addr gw)) :=
      sockaddrOf_inet6 hfamily' ▸ gateway_view hgw
    rw [hbegins.in6AddrAt (hms m hm 0 (by decide) d hd) hfamily,
      hbegins'.in6AddrAt (hms m hm 1 (by decide) gw hgw) hfamily', staticRouterOf,
      if_neg hversion', if_neg hindex', if_neg hflags', hdst, hgateway]
    simp only [Option.bind_some]
    split <;> rfl

end FreebsdDaemon

namespace MacosDaemon

variable {ms : List (Message macos)} {ifindex : ℕ} {sentinelAddr : InAddr} {gw : IPv6} {mac : Mac}

/-- `find_default_router` over the buffer. -/
theorem findDefaultRouterBytes_flatMap (hms : ∀ m ∈ ms, m.WellFormed) :
    findDefaultRouterBytes ifindex (ms.flatMap Message.bytes) =
      .ofOption (ms.findSome? fun m => defaultRouterOf ifindex m.view) := by
  refine scanDump_flatMap fun m hm after => scanMessage_bytes (fun b hb => ?_) ?_
  · rw [defaultRouterOf] at hb
    split at hb
    · cases hb
    · rename_i hversion
      split at hb
      · cases hb
      · rename_i hflags
        split at hb
        · cases hb
        · rename_i hindex
          split at hb
          · rename_i dst gw hdst hgw
            obtain ⟨d, hd, hfamily⟩ := exists_inet6 hdst
            obtain ⟨g, hg, hfamily'⟩ := exists_inet6 hgw
            exact ⟨decide_eq_true ⟨not_not.mp hversion, not_not.mp hflags, not_not.mp hindex⟩,
              d, g, hd, hg, hfamily, hfamily'⟩
          · cases hb
  · intro hwanted d gw p q hd hgw hfamily hfamily' hbegins hbegins'
    obtain ⟨hversion, hflags, hindex⟩ := of_decide_eq_true hwanted
    have hversion' : ¬ m.view.rtmVersion ≠ RTM_VERSION := not_not.mpr hversion
    have hindex' : ¬ m.view.rtmIndex ≠ ifindex := not_not.mpr hindex
    have hflags' : ¬ m.view.rtmFlags &&& (RTF_GATEWAY ||| RTF_UP) ≠
        RTF_GATEWAY ||| RTF_UP := not_not.mpr hflags
    have hdst : m.view.dst = some (.inet6 (in6Addr d)) := sockaddrOf_inet6 hfamily ▸ dst_view hd
    have hgateway : m.view.gateway = some (.inet6 (in6Addr gw)) :=
      sockaddrOf_inet6 hfamily' ▸ gateway_view hgw
    rw [hbegins.in6AddrAt (hms m hm 0 (by decide) d hd) hfamily,
      hbegins'.in6AddrAt (hms m hm 1 (by decide) gw hgw) hfamily', defaultRouterOf,
      if_neg hversion', if_neg hflags', if_neg hindex', hdst, hgateway]
    simp only [Option.bind_some]
    split <;> rfl

/-- The length of a link-layer address is what the socket address says. -/
theorem length_lladdr {os : Os} {s : Record os.size} (hfits : Fits s) (h : family s = AF_LINK) :
    (lladdr s).length = alen s := by
  have hle := (hfits.link h).2
  rw [lladdr, List.length_take, List.length_drop]
  omega

/-- `router_lladdr` over the buffer. -/
theorem routerLladdrBytes_flatMap (hms : ∀ m ∈ ms, m.WellFormed) :
    routerLladdrBytes ifindex gw (ms.flatMap Message.bytes) =
      .ofOption (ms.findSome? fun m => (lladdrOf ifindex gw m.view).map List.Vector.toList) := by
  refine scanDump_flatMap fun m hm after => scanMessage_bytes (fun b hb => ?_) ?_
  · obtain ⟨mac, hmac, -⟩ := Option.map_eq_some_iff.mp hb
    rw [lladdrOf] at hmac
    split at hmac
    · cases hmac
    · rename_i hversion
      split at hmac
      · cases hmac
      · rename_i hindex
        split at hmac
        · rename_i d6 l hdst hgw
          obtain ⟨d, hd, hfamily⟩ := exists_inet6 hdst
          obtain ⟨g, hg, hfamily'⟩ := exists_link hgw
          exact ⟨decide_eq_true ⟨not_not.mp hversion, not_not.mp hindex⟩, d, g, hd, hg, hfamily,
            hfamily'⟩
        · cases hmac
  · intro hwanted d sdl p q hd hsdl hfamily hfamily' hbegins hbegins'
    obtain ⟨hversion, hindex⟩ := of_decide_eq_true hwanted
    have hfits := hms m hm 1 (by decide) sdl hsdl
    have hversion' : ¬ m.view.rtmVersion ≠ RTM_VERSION := not_not.mpr hversion
    have hindex' : ¬ m.view.rtmIndex ≠ ifindex := not_not.mpr hindex
    have hdst : m.view.dst = some (.inet6 (in6Addr d)) := sockaddrOf_inet6 hfamily ▸ dst_view hd
    have hgateway : m.view.gateway = some (.link (lladdr sdl)) :=
      sockaddrOf_link hfamily' ▸ gateway_view hsdl
    have hlength := length_lladdr hfits hfamily'
    rw [hbegins.in6AddrAt (hms m hm 0 (by decide) d hd) hfamily, hbegins'.alenAt hfits hfamily',
      lladdrOf, if_neg hversion', if_neg hindex', hdst, hgateway]
    simp only [Option.bind_some]
    by_cases hother : stripEmbeddedScope (in6Addr d) ≠ gw
    · rw [if_pos hother, if_pos hother]
      rfl
    · rw [if_neg hother, if_neg hother]
      by_cases hsix : alen sdl = 6
      · have hread := hbegins'.lladdrAt hfits hfamily'
        rw [hsix] at hread
        rw [if_neg (not_not.mpr hsix), hread, dif_pos (hlength.trans hsix)]
        rfl
      · rw [if_pos hsix, dif_neg (hlength ▸ hsix)]
        rfl

/-- `arp_entry_present` over the buffer. -/
theorem arpEntryPresentBytes_flatMap (hms : ∀ m ∈ ms, m.WellFormed) :
    arpEntryPresentBytes ifindex sentinelAddr mac (ms.flatMap Message.bytes) =
      .ofOption (ms.findSome? fun m => presentIn ifindex sentinelAddr mac m.view) := by
  refine scanDump_flatMap fun m hm after => scanMessage_bytes (fun b hb => ?_) ?_
  · rw [presentIn] at hb
    split at hb
    · cases hb
    · rename_i hversion
      split at hb
      · cases hb
      · rename_i hindex
        split at hb
        · rename_i dst l hdst hgw
          obtain ⟨d, hd, hfamily⟩ := exists_inet hdst
          obtain ⟨g, hg, hfamily'⟩ := exists_link hgw
          exact ⟨decide_eq_true ⟨not_not.mp hversion, not_not.mp hindex⟩, d, g, hd, hg, hfamily,
            hfamily'⟩
        · cases hb
  · intro hwanted d sdl p q hd hsdl hfamily hfamily' hbegins hbegins'
    obtain ⟨hversion, hindex⟩ := of_decide_eq_true hwanted
    have hfits := hms m hm 1 (by decide) sdl hsdl
    have hversion' : ¬ m.view.rtmVersion ≠ RTM_VERSION := not_not.mpr hversion
    have hindex' : ¬ m.view.rtmIndex ≠ ifindex := not_not.mpr hindex
    have hflags : m.view.rtmFlags = m.rtm.flags := rfl
    have hdst : m.view.dst = some (.inet (inAddr d)) := sockaddrOf_inet hfamily ▸ dst_view hd
    have hgateway : m.view.gateway = some (.link (lladdr sdl)) :=
      sockaddrOf_link hfamily' ▸ gateway_view hsdl
    have hlength := length_lladdr hfits hfamily'
    rw [hbegins.inAddrAt (hms m hm 0 (by decide) d hd) hfamily, hbegins'.alenAt hfits hfamily',
      presentIn, if_neg hversion', if_neg hindex', hdst, hgateway, hflags]
    simp only [Option.bind_some]
    by_cases hother : inAddr d ≠ sentinelAddr
    · rw [if_pos hother, if_pos hother]
    · rw [if_neg hother, if_neg hother]
      by_cases hsix : alen sdl = 6
      · have hread := hbegins'.lladdrAt hfits hfamily'
        rw [hsix] at hread hlength
        rw [if_neg (not_not.mpr hsix), hread, hlength]
        simp
      · rw [if_pos hsix, hlength]
        simp [hsix]

/-- `sentinel_in_fib` over the buffer. -/
theorem sentinelInFibBytes_flatMap (hms : ∀ m ∈ ms, m.WellFormed) :
    sentinelInFibBytes sentinelAddr (ms.flatMap Message.bytes) =
      .ofOption (ms.findSome? fun m =>
        if isSentinelRoute sentinelAddr m.view then some () else none) := by
  refine scanDump_flatMap fun m hm after => scanMessage_bytes (fun b hb => ?_) ?_
  · have hroute : isSentinelRoute sentinelAddr m.view = true := by
      by_contra h
      rw [if_neg h] at hb
      cases hb
    rw [isSentinelRoute] at hroute
    split at hroute
    · cases hroute
    · rename_i hversion
      split at hroute
      · cases hroute
      · rename_i hflags
        split at hroute
        · rename_i dst gw hdst hgw
          obtain ⟨d, hd, hfamily⟩ := exists_inet hdst
          obtain ⟨g, hg, hfamily'⟩ := exists_inet hgw
          exact ⟨decide_eq_true ⟨not_not.mp hversion, hflags⟩, d, g, hd, hg, hfamily, hfamily'⟩
        · cases hroute
  · intro hwanted d gw p q hd hgw hfamily hfamily' hbegins hbegins'
    obtain ⟨hversion, hflag⟩ := of_decide_eq_true hwanted
    have hversion' : ¬ m.view.rtmVersion ≠ RTM_VERSION := not_not.mpr hversion
    have hflag' : ¬ m.view.rtmFlags &&& RTF_GATEWAY = 0 := hflag
    have hdst : m.view.dst = some (.inet (inAddr d)) := sockaddrOf_inet hfamily ▸ dst_view hd
    have hgateway : m.view.gateway = some (.inet (inAddr gw)) :=
      sockaddrOf_inet hfamily' ▸ gateway_view hgw
    rw [hbegins.inAddrAt (hms m hm 0 (by decide) d hd) hfamily,
      hbegins'.inAddrAt (hms m hm 1 (by decide) gw hgw) hfamily', isSentinelRoute,
      if_neg hversion', if_neg hflag', hdst, hgateway]
    simp only [Option.bind_some]
    by_cases hzero : inAddr d = 0#32
    · by_cases hsentinel : inAddr gw = sentinelAddr <;> simp [hzero, hsentinel]
    · simp [hzero]

end MacosDaemon

/-! ### The message that `route_msg` writes -/

namespace FreebsdDaemon

/-- `rtm_type`. -/
def RtmType.code : RtmType → ℕ
  | .add => 1
  | .delete => 2
  | .change => 3

/-- `RTA_DST | RTA_GATEWAY | RTA_NETMASK` -/
def rtaRoute : ℕ := 0x7

/-- A `struct sockaddr_in` with an address. -/
def sockaddrIn (addr : InAddr) : List UInt8 :=
  [16, UInt8.ofNat AF_INET, 0, 0] ++ toBE 4 addr.toNat ++ List.replicate 8 0

/-- A `struct sockaddr_in6` with an address. -/
def sockaddrIn6 (addr : IPv6) : List UInt8 :=
  [28, UInt8.ofNat freebsd.AF_INET6, 0, 0] ++ List.replicate 4 0 ++ toBE 16 addr.toNat ++
    List.replicate 4 0

/-- A socket address copied into cleared space, with `cp` moved by `SA_SIZE`. -/
def saPadded (sa : List UInt8) : List UInt8 :=
  sa ++ List.replicate (padded 8 sa.length - sa.length) 0

/-- `m.space` up to `cp`. -/
def space (ifindex : ℕ) (gw : IPv6) : List UInt8 :=
  saPadded (sockaddrIn 0) ++ saPadded (sockaddrIn6 (fillGateway ifindex gw)) ++
    saPadded (sockaddrIn 0)

/-- `m.hdr`: what is behind `rtm_seq` stays cleared. -/
def hdr (type : RtmType) (ifindex pid rtseq msglen : ℕ) : List UInt8 :=
  toLE 2 msglen ++ toLE 1 RTM_VERSION ++ toLE 1 type.code ++ toLE 2 ifindex ++ [0, 0] ++
    toLE 4 (RTF_UP ||| RTF_GATEWAY ||| RTF_STATIC).toNat ++ toLE 4 rtaRoute ++ toLE 4 pid ++
    toLE 4 rtseq ++ List.replicate 128 0

/-- What `route_msg` writes to the routing socket. -/
def routeMsgBytes (type : RtmType) (ifindex pid rtseq : ℕ) (gw : IPv6) : List UInt8 :=
  hdr type ifindex pid rtseq (freebsd.rtMsghdr + (space ifindex gw).length) ++ space ifindex gw

theorem length_sockaddrIn6 (addr : IPv6) : (sockaddrIn6 addr).length = 28 := by
  simp [sockaddrIn6, length_toBE]

/-- The socket address of the gateway. -/
def gatewayRecord (ifindex : ℕ) (gw : IPv6) : Record freebsd.size where
  len := 28
  data := (saPadded (sockaddrIn6 (fillGateway ifindex gw))).tail
  occupied := by
    rw [List.length_tail, saPadded, length_sockaddrIn6, List.length_append, length_sockaddrIn6]
    rfl

/-- The socket address `0.0.0.0`. -/
def anyRecord : Record freebsd.size where
  len := 16
  data := (saPadded (sockaddrIn 0)).tail
  occupied := by decide

theorem bytes_anyRecord : anyRecord.bytes = saPadded (sockaddrIn 0) := rfl

theorem bytes_gatewayRecord (ifindex : ℕ) (gw : IPv6) :
    (gatewayRecord ifindex gw).bytes = saPadded (sockaddrIn6 (fillGateway ifindex gw)) := rfl

theorem length_space (ifindex : ℕ) (gw : IPv6) : (space ifindex gw).length = 64 := by
  rw [space, saPadded, saPadded, length_sockaddrIn6]
  simp [length_sockaddrIn6, sockaddrIn, length_toBE, padded]

theorem length_hdr (type : RtmType) (ifindex pid rtseq msglen : ℕ) :
    (hdr type ifindex pid rtseq msglen).length = freebsd.rtMsghdr := by
  simp [hdr, length_toLE, freebsd]

theorem headerOf_hdr (type : RtmType) (ifindex pid rtseq msglen : ℕ) :
    headerOf (hdr type ifindex pid rtseq msglen) =
      { version := RTM_VERSION
        index := ifindex % 2 ^ 16
        flags := RTF_UP ||| RTF_GATEWAY ||| RTF_STATIC
        addrs := BitVec.ofNat 32 rtaRoute } := by
  have hindex : fromLE (toLE 2 ifindex) = ifindex % 2 ^ 16 := fromLE_toLE 2 ifindex
  have hflags : BitVec.ofNat 32 (fromLE (toLE 4 (RTF_UP ||| RTF_GATEWAY ||| RTF_STATIC).toNat)) =
      RTF_UP ||| RTF_GATEWAY ||| RTF_STATIC := by decide
  rw [headerOf, ← hindex, ← hflags]
  rfl

/-- The mask of `route_msg` has the first three bits and no other. -/
theorem addrsBefore_rtaRoute : addrsBefore (BitVec.ofNat 32 rtaRoute) RTAX_MAX = 3 ∧
    ∀ i < 3, (BitVec.ofNat 32 rtaRoute).getLsbD i = true ∧
      addrsBefore (BitVec.ofNat 32 rtaRoute) i = i := by
  decide

theorem packed_records (ifindex : ℕ) (gw : IPv6) :
    packed [anyRecord, gatewayRecord ifindex gw, anyRecord] = space ifindex gw := by
  rw [packed_cons, packed_cons, packed_cons, bytes_anyRecord, bytes_gatewayRecord, space,
    List.append_assoc]
  exact congrArg _ (congrArg _ (List.append_nil _))

/-- The message of `route_msg`. -/
def routeMessage (type : RtmType) (ifindex pid rtseq : ℕ) (gw : IPv6) : Message freebsd where
  header := hdr type ifindex pid rtseq (freebsd.rtMsghdr + (space ifindex gw).length)
  sas := [anyRecord, gatewayRecord ifindex gw, anyRecord]
  length_header := length_hdr ..
  length_sas := by
    rw [headerOf_hdr, addrsBefore_rtaRoute.1]
    rfl
  msglen := by
    rw [packed_records, length_space]
    rfl

variable {type : RtmType} {ifindex pid rtseq : ℕ} {gw : IPv6}

theorem bytes_routeMessage :
    (routeMessage type ifindex pid rtseq gw).bytes = routeMsgBytes type ifindex pid rtseq gw := by
  rw [Message.bytes, routeMsgBytes]
  exact congrArg _ (packed_records ifindex gw)

theorem rtm_routeMessage : (routeMessage type ifindex pid rtseq gw).rtm =
    { version := RTM_VERSION
      index := ifindex % 2 ^ 16
      flags := RTF_UP ||| RTF_GATEWAY ||| RTF_STATIC
      addrs := BitVec.ofNat 32 rtaRoute } :=
  headerOf_hdr ..

/-- The socket addresses are the first three. -/
theorem record_routeMessage {i : ℕ} (hi : i < 3) :
    (routeMessage type ifindex pid rtseq gw).record i =
      [anyRecord, gatewayRecord ifindex gw, anyRecord][i]? := by
  obtain ⟨hbit, hbefore⟩ := addrsBefore_rtaRoute.2 i hi
  rw [Message.record, rtm_routeMessage, if_pos hbit, hbefore]
  rfl

theorem sockaddrOf_anyRecord : sockaddrOf anyRecord = .inet 0 := by
  have hfamily : family anyRecord = AF_INET := rfl
  have hbytes : (anyRecord.bytes.drop 4).take 4 = toBE 4 0 := rfl
  rw [sockaddrOf_inet hfamily, inAddr, hbytes, fromBE_toBE, Nat.zero_mod]
  rfl

theorem sockaddrOf_gatewayRecord :
    sockaddrOf (gatewayRecord ifindex gw) = .inet6 (fillGateway ifindex gw) := by
  have hfamily : family (gatewayRecord ifindex gw) = freebsd.AF_INET6 := rfl
  have hfront : ([28, UInt8.ofNat freebsd.AF_INET6, 0, 0] ++ List.replicate 4 0).length = 8 := rfl
  have hlt : (fillGateway ifindex gw).toNat < 256 ^ 16 := (fillGateway ifindex gw).isLt
  rw [sockaddrOf_inet6 hfamily, in6Addr, bytes_gatewayRecord, saPadded, sockaddrIn6,
    List.append_assoc, List.append_assoc, List.drop_left' hfront, List.take_left' (length_toBE ..),
    fromBE_toBE, Nat.mod_eq_of_lt hlt, BitVec.ofNat_toNat, BitVec.setWidth_eq]

/-- The kernel sees the message of `routeRow`. -/
theorem view_routeMessage :
    (routeMessage type ifindex pid rtseq gw).view = routeRow ifindex gw := by
  rw [Message.view, rtm_routeMessage, record_routeMessage (by decide),
    record_routeMessage (by decide), record_routeMessage (by decide)]
  simp only [List.getElem?_cons_zero, List.getElem?_cons_succ, Option.map_some,
    sockaddrOf_anyRecord, sockaddrOf_gatewayRecord]
  rfl

theorem fits_anyRecord : Fits anyRecord where
  inet _ := by decide
  inet6 := by decide
  link := by decide

theorem fits_gatewayRecord : Fits (gatewayRecord ifindex gw) where
  inet := nofun
  inet6 _ := by
    have hlen : (gatewayRecord ifindex gw).len = 28 := rfl
    rw [Record.length_bytes, hlen]
    decide
  link := nofun

theorem wellFormed_routeMessage : (routeMessage type ifindex pid rtseq gw).WellFormed := by
  intro i hi s hs
  rw [record_routeMessage (Nat.lt_succ_of_lt hi)] at hs
  match i, hi, hs with
  | 0, _, rfl => exact fits_anyRecord
  | 1, _, rfl => exact fits_gatewayRecord

/-! ### The scope of a link-local address -/

/-- The address with a scope in bytes 2 and 3. -/
def withScope (a : IPv6) (scope : BitVec 16) : IPv6 :=
  (a &&& ~~~(0xffff#128 <<< 96)) ||| (scope.setWidth 128 <<< 96)

variable {a : IPv6} {scope scope' : BitVec 16}

theorem getLsbD_withScope (i : ℕ) : (withScope a scope).getLsbD i =
    if 96 ≤ i ∧ i < 112 then scope.getLsbD (i - 96) else a.getLsbD i := by
  have hmask : 0xffff#128 = (BitVec.allOnes 16).setWidth 128 := by decide
  have hbit : i < 128 ∨ a.getLsbD i = false := by
    by_cases hi : i < 128
    · exact .inl hi
    · exact .inr (BitVec.getLsbD_of_ge a i (by omega))
  rw [withScope, hmask]
  simp only [BitVec.getLsbD_or, BitVec.getLsbD_and, BitVec.getLsbD_not, BitVec.getLsbD_shiftLeft,
    BitVec.getLsbD_setWidth, BitVec.getLsbD_allOnes]
  split
  · rename_i h
    have hi : i < 128 := by omega
    have hoff : i - 96 < 16 := by omega
    have hoff' : i - 96 < 128 := by omega
    have hge : ¬ i < 96 := by omega
    simp [hi, hoff, hoff', hge]
  · rename_i h
    by_cases hlt : i < 96
    · have hi : i < 128 := by omega
      simp [hlt, hi]
    · have hoff : ¬ i - 96 < 16 := by omega
      have hscope : scope.getLsbD (i - 96) = false := BitVec.getLsbD_of_ge scope _ (by omega)
      rcases hbit with hi | ha
      · simp [hlt, hoff, hscope, hi]
      · simp [hoff, hscope, ha]

/-- The bits above the scope stay as they are. -/
theorem withScope_shiftRight {k : ℕ} (hk : 112 ≤ k) : withScope a scope >>> k = a >>> k := by
  refine BitVec.eq_of_getLsbD_eq fun i _ => ?_
  rw [BitVec.getLsbD_ushiftRight, BitVec.getLsbD_ushiftRight, getLsbD_withScope, if_neg (by omega)]

/-- The last scope counts. -/
theorem withScope_withScope : withScope (withScope a scope) scope' = withScope a scope' := by
  refine BitVec.eq_of_getLsbD_eq fun i _ => ?_
  rw [getLsbD_withScope, getLsbD_withScope, getLsbD_withScope]
  split <;> rfl

/-- The address that a scan reads back gets the same scope again. -/
theorem fillGateway_stripEmbeddedScope :
    fillGateway ifindex (stripEmbeddedScope (fillGateway ifindex gw)) = fillGateway ifindex gw := by
  by_cases hscoped : gw >>> 118 = 0x3fa#128 ∨
      (gw >>> 120 = 0xff#128 ∧ (gw >>> 112) &&& 0xf#128 = 2#128)
  · have hfilled : ∀ a : IPv6, a >>> 118 = gw >>> 118 → a >>> 120 = gw >>> 120 →
        a >>> 112 = gw >>> 112 →
        fillGateway ifindex a = withScope a (BitVec.ofNat 16 ifindex) := by
      intro a h118 h120 h112
      rw [fillGateway, if_pos (by rwa [h118, h120, h112]), withScope]
    rw [hfilled gw rfl rfl rfl, stripEmbeddedScope]
    split
    · have hcleared : withScope gw (BitVec.ofNat 16 ifindex) &&& ~~~(0xffff#128 <<< 96) =
          withScope (withScope gw (BitVec.ofNat 16 ifindex)) 0 := by
        simp [withScope]
      rw [hcleared, withScope_withScope, hfilled _ (withScope_shiftRight (by decide))
        (withScope_shiftRight (by decide)) (withScope_shiftRight (by decide)), withScope_withScope]
    · rw [hfilled _ (withScope_shiftRight (by decide)) (withScope_shiftRight (by decide))
        (withScope_shiftRight (by decide)), withScope_withScope]
  · have hsame : fillGateway ifindex gw = gw := if_neg hscoped
    have hstrip : stripEmbeddedScope gw = gw := if_neg fun h => hscoped (.inl h)
    rw [hsame, hstrip, hsame]

/-- **What `route_msg` writes**: for every type, interface and gateway the bytes are a well-formed
message, which the kernel reads as `routeRow`, and a scan that takes the scope out of the gateway
leaves an address for which `route_msg` writes the same gateway again. -/
theorem routeMsgBytes_view (type : RtmType) (ifindex pid rtseq : ℕ) (gw : IPv6) :
    (∃ m : Message freebsd, m.bytes = routeMsgBytes type ifindex pid rtseq gw ∧ m.WellFormed ∧
      m.view = routeRow ifindex gw) ∧
    (routeRow ifindex (stripEmbeddedScope (fillGateway ifindex gw))).gateway =
      (routeRow ifindex gw).gateway :=
  ⟨⟨routeMessage type ifindex pid rtseq gw, bytes_routeMessage, wellFormed_routeMessage,
    view_routeMessage⟩, congrArg (some ∘ Sockaddr.inet6) fillGateway_stripEmbeddedScope⟩

end FreebsdDaemon

/-! ### All scans -/

/-- What a scan says about a table: `found` if a message is what it looks for. -/
theorem ofOption_findSome? {os : Os} {β : Type} (f : RtMsg → Option β) (ms : List (Message os)) :
    Scanned.ofOption (ms.findSome? fun m => f m.view) =
      .ofOption ((ms.map Message.view).findSome? f) := by
  rw [List.findSome?_map]
  rfl

/-- A search for a message with a property. -/
theorem findSome?_ite {q : RtMsg → Bool} (l : List RtMsg) :
    (l.findSome? fun rtm => if q rtm then some () else none) =
      if l.any q then some () else none := by
  induction l with
  | nil => rfl
  | cons rtm l ih =>
      rw [List.findSome?_cons, List.any_cons, ih]
      cases q rtm <;> simp

/-- **The scans of a dump**: over the buffer that the kernel makes of any list of messages the
six scans find what they find over the list; none reads behind the end or goes on for ever. -/
theorem scans_of_dump {ms : List (Message freebsd)} {ms' : List (Message macos)}
    (hms : ∀ m ∈ ms, m.WellFormed) (hms' : ∀ m ∈ ms', m.WellFormed) (ifindex : ℕ) (gw : IPv6)
    (sentinelAddr : InAddr) (mac : Mac) :
    (FreebsdDaemon.sentinelInFibBytes (ms.flatMap Message.bytes) = .ofOption
      (if FreebsdDaemon.sentinelInFib (ms.map Message.view) then some () else none)) ∧
    FreebsdDaemon.staticDefaultRouterBytes ifindex (ms.flatMap Message.bytes) =
      .ofOption (FreebsdDaemon.staticDefaultRouter ifindex (ms.map Message.view)) ∧
    MacosDaemon.findDefaultRouterBytes ifindex (ms'.flatMap Message.bytes) =
      .ofOption (MacosDaemon.findDefaultRouter ifindex (ms'.map Message.view)) ∧
    MacosDaemon.routerLladdrBytes ifindex gw (ms'.flatMap Message.bytes) = .ofOption
      ((MacosDaemon.routerLladdr ifindex gw (ms'.map Message.view)).map List.Vector.toList) ∧
    (MacosDaemon.arpEntryPresentBytes ifindex sentinelAddr mac (ms'.flatMap Message.bytes) =
        .ofOption ((ms'.map Message.view).findSome?
          (MacosDaemon.presentIn ifindex sentinelAddr mac)) ∧
      (MacosDaemon.arpEntryPresentBytes ifindex sentinelAddr mac (ms'.flatMap Message.bytes) =
          .found true ↔
        MacosDaemon.arpEntryPresent ifindex sentinelAddr mac (ms'.map Message.view) = true)) ∧
    MacosDaemon.sentinelInFibBytes sentinelAddr (ms'.flatMap Message.bytes) = .ofOption
      (if MacosDaemon.sentinelInFib sentinelAddr (ms'.map Message.view) then some () else
        none) := by
  refine ⟨?_, ?_, ?_, ?_, ?_, ?_⟩
  · rw [FreebsdDaemon.sentinelInFibBytes_flatMap hms,
      ofOption_findSome? fun rtm => if FreebsdDaemon.isSentinelRoute rtm then some () else none,
      findSome?_ite]
    rfl
  · rw [FreebsdDaemon.staticDefaultRouterBytes_flatMap hms,
      ofOption_findSome? (FreebsdDaemon.staticRouterOf ifindex)]
    rfl
  · rw [MacosDaemon.findDefaultRouterBytes_flatMap hms',
      ofOption_findSome? (MacosDaemon.defaultRouterOf ifindex)]
    rfl
  · rw [MacosDaemon.routerLladdrBytes_flatMap hms',
      ofOption_findSome? fun rtm => (MacosDaemon.lladdrOf ifindex gw rtm).map List.Vector.toList,
      MacosDaemon.routerLladdr, List.map_findSome?]
    rfl
  · rw [MacosDaemon.arpEntryPresentBytes_flatMap hms',
      ofOption_findSome? (MacosDaemon.presentIn ifindex sentinelAddr mac),
      MacosDaemon.arpEntryPresent]
    refine ⟨rfl, ?_⟩
    cases (ms'.map Message.view).findSome? (MacosDaemon.presentIn ifindex sentinelAddr mac) with
    | none => simp [Scanned.ofOption]
    | some b => simp [Scanned.ofOption]
  · rw [MacosDaemon.sentinelInFibBytes_flatMap hms',
      ofOption_findSome? fun rtm =>
        if MacosDaemon.isSentinelRoute sentinelAddr rtm then some () else none, findSome?_ite]
    rfl

/-- A dump with the sentinel's default route. -/
def sentinelMessage : Message freebsd where
  header := FreebsdDaemon.hdr .add 2 100 1 200
  sas := [FreebsdDaemon.anyRecord,
    { len := 16, data := (FreebsdDaemon.sockaddrIn 0xc000000b).tail, occupied := by decide },
    FreebsdDaemon.anyRecord]
  length_header := FreebsdDaemon.length_hdr ..
  length_sas := by decide
  msglen := by decide

/-- A dump with a permanent ARP entry. -/
def arpMessage : Message macos where
  header := toLE 2 128 ++ [5, 4] ++ toLE 2 4 ++ [0, 0] ++ toLE 4 RTF_STATIC.toNat ++ toLE 4 3 ++
    List.replicate 76 0
  sas := [{ len := 16, data := (FreebsdDaemon.sockaddrIn 0xc000000b).tail, occupied := by decide },
    { len := 20, data := [18, 4, 0, 6, 0, 6, 0, 0x52, 0x54, 0, 0xaa, 0xbb, 0x01] ++
        List.replicate 6 0, occupied := by decide }]
  length_header := by decide
  length_sas := by decide
  msglen := by decide

/-- The daemon for FreeBSD finds the sentinel's route and no router; the other one finds its entry,
and would not find one with another MAC. -/
theorem scans_of_twoDumps :
    FreebsdDaemon.sentinelInFibBytes sentinelMessage.bytes = .found () ∧
    FreebsdDaemon.staticDefaultRouterBytes 4 sentinelMessage.bytes = .exhausted ∧
    MacosDaemon.arpEntryPresentBytes 4 0xc000000b ⟨[0x52, 0x54, 0, 0xaa, 0xbb, 0x01], rfl⟩
      arpMessage.bytes = .found true ∧
    MacosDaemon.arpEntryPresentBytes 4 0xc000000b ⟨[0x52, 0x54, 0, 0xaa, 0xbb, 0x02], rfl⟩
      arpMessage.bytes = .found false := by
  have hfits : ∀ m ∈ [sentinelMessage], m.WellFormed := by
    intro m hm i hi s hs
    cases List.mem_singleton.mp hm
    match i, hi, hs with
    | 0, _, rfl => exact ⟨by decide, by decide, by decide⟩
    | 1, _, rfl => exact ⟨by decide, by decide, by decide⟩
  have hfits' : ∀ m ∈ [arpMessage], m.WellFormed := by
    intro m hm i hi s hs
    cases List.mem_singleton.mp hm
    match i, hi, hs with
    | 0, _, rfl => exact ⟨by decide, by decide, by decide⟩
    | 1, _, rfl => exact ⟨by decide, by decide, by decide⟩
  obtain ⟨hfib, -, -, -, harp, -⟩ := scans_of_dump hfits hfits' 4 0 0xc000000b
    ⟨[0x52, 0x54, 0, 0xaa, 0xbb, 0x01], rfl⟩
  obtain ⟨-, hstatic, -, -, hother, -⟩ := scans_of_dump hfits hfits' 4 0 0xc000000b
    ⟨[0x52, 0x54, 0, 0xaa, 0xbb, 0x02], rfl⟩
  rw [List.flatMap_singleton] at hfib harp hstatic hother
  exact ⟨hfib.trans (by decide), hstatic.trans (by decide), harp.2.mpr (by decide),
    hother.1.trans (by decide)⟩

end V4WithV6Nh
