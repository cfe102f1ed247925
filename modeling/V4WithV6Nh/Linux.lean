import V4WithV6Nh.FirstMatch
import V4WithV6Nh.PyText

/-!
# The Linux Tables behind the Python Daemons

`v4gwd.py` and `v4gwrd.py` see the kernel through rtnetlink. What they only read (links,
IPv6 routes, the IPv6 neighbour cache) is a `Snapshot`, which may be different at every
event. What they also write (the IPv4 FIB and the IPv4 neighbour table) is `Tables`.

Addresses in IPv6 are 128-bit values: the daemons receive them in canonical text and only
compare, classify and combine them. IPv4 addresses, link-layer addresses and interface
names stay text, as in the source.

Each request takes the error the kernel is to answer it with, `none` for a request that
is carried out. `routeReplace` is RTM_NEWROUTE with NLM_F_CREATE and NLM_F_REPLACE: it
overwrites the first route of the table with the same destination, TOS and priority,
whatever its output interface and protocol. `routeDel` removes the first route of the
main table with all the attributes the request names and answers ESRCH if there is none.

`routeReplace_none` and `routeDel_ok` say what a request that succeeded did.
-/

namespace V4WithV6Nh

/-- An IPv6 address. -/
abbrev IPv6 := BitVec 128

/-- `pyroute2.netlink.exceptions.NetlinkError`. -/
structure NetlinkError where
  code : ℕ
deriving DecidableEq

/-- `errno.ENOENT`. -/
def ENOENT : ℕ := 2

/-- `errno.ESRCH`. -/
def ESRCH : ℕ := 3

/-- The table that requests without RTA_TABLE address. -/
def RT_TABLE_MAIN : ℕ := 254

/-- A network interface. -/
structure Link where
  ifname : Text
  index : ℕ
  /-- ARPHRD type; 1 is ethernet. -/
  ifiType : ℕ
deriving DecidableEq

/-- One next hop of an ECMP route (RTA_MULTIPATH). -/
structure NextHop where
  oif : ℕ
  gateway : Option IPv6
deriving DecidableEq

/-- A route of an IPv6 dump. An ECMP route has no `oif` and no `gateway` of its own, only
a `multipath` list. -/
structure Route6 where
  dstLen : ℕ
  dst : Option IPv6
  oif : Option ℕ
  gateway : Option IPv6
  /-- RTA_PREF. -/
  pref : Option ℕ
  multipath : List NextHop
deriving DecidableEq

/-- An entry of the IPv6 neighbour cache. -/
structure Neigh6 where
  ifindex : ℕ
  dst : Option IPv6
  lladdr : Option Text
  /-- The NUD state. -/
  state : ℕ
deriving DecidableEq

/-- The destination of a default route. -/
def INADDR_ANY : Text := "0.0.0.0".toList

/-- An IPv4 route. A default route has destination `INADDR_ANY` and length 0. -/
structure Route4 where
  /-- The routing table. -/
  table : ℕ
  dst : Text
  dstLen : ℕ
  tos : ℕ
  priority : ℕ
  oif : Option ℕ
  proto : ℕ
  gateway : Option Text
  /-- RTA_VIA with an IPv6 next hop. -/
  via : Option IPv6
deriving DecidableEq

/-- An entry of the IPv4 neighbour table. -/
structure Neigh4 where
  ifindex : ℕ
  dst : Text
  lladdr : Option Text
  state : ℕ
deriving DecidableEq

/-- The kernel state the daemons only read. -/
structure Snapshot where
  links : List Link
  routes6 : List Route6
  neigh6 : List Neigh6

/-- The kernel state the daemons also write. -/
@[ext]
structure Tables where
  fib : List Route4
  neigh4 : List Neigh4
deriving DecidableEq

/-- `links[0] if links else None` for `links = ipr.link_lookup(ifname=ifname)`. -/
def linkLookup (links : List Link) (ifname : Text) : Option ℕ :=
  (links.find? fun l => decide (l.ifname = ifname)).map Link.index

/-! ### Routes -/

/-- The key by which RTM_NEWROUTE finds the route to replace. -/
def Route4.sameKey (r x : Route4) : Bool :=
  decide (x.table = r.table ∧ x.dst = r.dst ∧ x.dstLen = r.dstLen ∧ x.tos = r.tos ∧
    x.priority = r.priority)

/-- `ipr.route("replace", ...)`. -/
def routeReplace (fault : Option NetlinkError) (r : Route4) (t : Tables) :
    Except NetlinkError Tables :=
  match fault with
  | some e => .error e
  | none => .ok { t with fib := upsertFirst r.sameKey r t.fib }

/-- The attributes an RTM_DELROUTE request names. -/
structure RouteFilter where
  dst : Text
  dstLen : ℕ
  oif : Option ℕ
  priority : Option ℕ
  proto : ℕ

/-- The routes an RTM_DELROUTE request may remove. -/
def RouteFilter.accepts (m : RouteFilter) (x : Route4) : Bool :=
  decide (x.table = RT_TABLE_MAIN ∧ x.dst = m.dst ∧ x.dstLen = m.dstLen ∧ x.tos = 0 ∧
      x.proto = m.proto) &&
    (match m.oif with
      | none => true
      | some i => decide (x.oif = some i)) &&
    match m.priority with
      | none => true
      | some p => decide (x.priority = p)

/-- `ipr.route("del", ...)`. -/
def routeDel (fault : Option NetlinkError) (m : RouteFilter) (t : Tables) :
    Except NetlinkError Tables :=
  match fault with
  | some e => .error e
  | none =>
      if t.fib.any m.accepts then .ok { t with fib := t.fib.eraseP m.accepts }
      else .error ⟨ESRCH⟩

/-- A delete that succeeded touched only routes its request names. -/
theorem routeDel_ok {fault : Option NetlinkError} {m : RouteFilter} {t t' : Tables}
    (h : routeDel fault m t = .ok t') :
    t'.fib = t.fib.eraseP m.accepts ∧ t'.neigh4 = t.neigh4 := by
  cases fault with
  | some e => cases h
  | none =>
      rw [routeDel] at h
      split at h
      · obtain rfl := Except.ok.inj h
        exact ⟨rfl, rfl⟩
      · cases h

/-- A request without an injected error is carried out. -/
@[simp] theorem routeReplace_none (r : Route4) (t : Tables) :
    routeReplace none r t = .ok { t with fib := upsertFirst r.sameKey r t.fib } := rfl

/-! ### IPv4 neighbours -/

/-- The entries for one address on one interface. -/
def Neigh4.isFor (ifindex : ℕ) (dst : Text) (n : Neigh4) : Bool :=
  decide (n.ifindex = ifindex ∧ n.dst = dst)

/-- `ipr.neigh("replace", ...)`. -/
def neighReplace (fault : Option NetlinkError) (n : Neigh4) (t : Tables) :
    Except NetlinkError Tables :=
  match fault with
  | some e => .error e
  | none => .ok { t with neigh4 := upsertFirst (Neigh4.isFor n.ifindex n.dst) n t.neigh4 }

/-- `ipr.neigh("del", ...)`. -/
def neighDel (fault : Option NetlinkError) (ifindex : ℕ) (dst : Text) (t : Tables) :
    Except NetlinkError Tables :=
  match fault with
  | some e => .error e
  | none =>
      if t.neigh4.any (Neigh4.isFor ifindex dst) then
        .ok { t with neigh4 := t.neigh4.eraseP (Neigh4.isFor ifindex dst) }
      else .error ⟨ENOENT⟩

/-- Deleting a neighbour leaves the FIB alone. -/
theorem neighDel_fib {fault : Option NetlinkError} {i : ℕ} {dst : Text} {t t' : Tables}
    (h : neighDel fault i dst t = .ok t') : t'.fib = t.fib := by
  cases fault with
  | some e => cases h
  | none =>
      rw [neighDel] at h
      split at h
      · exact (Except.ok.inj h) ▸ rfl
      · cases h

/-- NUD states usable for transmission: REACHABLE, STALE, DELAY, PROBE. -/
def nudUsable (state : ℕ) : Bool :=
  state ∈ [0x02, 0x04, 0x08, 0x10]

end V4WithV6Nh
