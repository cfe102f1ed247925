import V4WithV6Nh.NeighbourScan
import V4WithV6Nh.Run

/-!
# The Lease Script over a Run of Leases

dnsmasq runs `v4gw-lease.sh` for every event of a lease, one at a time. An `add` or `old` looks
for a next hop and replaces the host's route; if it finds none, the route that is there stays. A
`del` removes the route. The script ends at the first command that fails, and only the commands
behind it are lost: the deletion of the IPv4 neighbour is not made if the route was refused.

The tools that the script calls find another router every time, and other programs change the
tables between two calls, except for the host routes of the main table.

## Main results

* `mem_hostRoutes_iff`: a host route is in the kernel exactly if the last event of its address
  that had an effect has put it there, and then its next hop is the answered GUA of that event's
  MAC, or an address on a line of the ND cache that has the MAC in it.
-/

namespace V4WithV6Nh.LeaseScript

/-! ### The script -/

/-- The arguments of dnsmasq, and `DNSMASQ_INTERFACE`. -/
structure Lease where
  action : Text
  mac : Text
  ip4 : Text
  interface : Text

/-- What the tools find and do while the script runs. -/
structure Tools where
  router : Router
  /-- The lines of `ip -6 neigh show dev "$IF"`, before and after the `ping`. -/
  neigh : List Text
  probed : List Text
  ifindex : Text → Option ℕ
  replaceFault : Option NetlinkError
  routeDelFault : Option NetlinkError
  neighDelFault : Option NetlinkError

/-- RTPROT_BOOT, which `ip` gives a route if it is not told another. -/
def RTPROT_BOOT : ℕ := 3

/-- The route of a host. -/
def leaseRoute (ip4 : Text) (idx : ℕ) (via : IPv6) : Route4 where
  table := RT_TABLE_MAIN
  dst := ip4
  dstLen := 32
  tos := 0
  priority := 0
  oif := some idx
  proto := RTPROT_BOOT
  gateway := none
  via := some via

/-- The routes to a host that `ip route del "$ip4/32"` looks at. -/
def slot (ip4 : Text) (r : Route4) : Bool :=
  decide (r.table = RT_TABLE_MAIN ∧ r.dst = ip4 ∧ r.dstLen = 32 ∧ r.tos = 0)

/-- The routes to a host. -/
def hostRoutes (ip4 : Text) (t : Tables) : List Route4 := t.fib.filter (slot ip4)

/-- The route of `ip route replace "$ip4/32" via inet6 "$nh" dev "$IF"`, if `ip` understands
its arguments. -/
def parsedRoute (tools : Tools) (ip4 nh dev : Text) : Option Route4 :=
  match parseIPv6 nh, tools.ifindex dev with
  | some via, some idx => some (leaseRoute ip4 idx via)
  | _, _ => none

/-- `ip route replace`, which may fail. -/
def ipRouteReplace (tools : Tools) (ip4 nh dev : Text) (t : Tables) : Option Tables :=
  match parsedRoute tools ip4 nh dev with
  | some r => (routeReplace tools.replaceFault r t).toOption
  | none => none

/-- `ip route del "$ip4/32" 2>/dev/null || true` -/
def ipRouteDel (tools : Tools) (ip4 : Text) (t : Tables) : Tables :=
  match tools.routeDelFault with
  | some _ => t
  | none => { t with fib := t.fib.eraseP (slot ip4) }

/-- `ip -4 neigh del "$ip4" dev "$IF" 2>/dev/null || true` -/
def ipNeighDel (tools : Tools) (ip4 dev : Text) (t : Tables) : Tables :=
  match tools.ifindex dev with
  | some idx => ((neighDel tools.neighDelFault idx ip4 t).toOption).getD t
  | none => t

/-- The script, with what it leaves and whether its exit status is zero. -/
def main (tools : Tools) (lease : Lease) (t : Tables) : Tables × Bool :=
  if lease.interface = [] ∨ lease.ip4 = [] then (t, true)
  else if lease.action = "add".toList ∨ lease.action = "old".toList then
    let nh := nexthop tools.router lease.mac tools.neigh tools.probed
    if nh = [] then (ipNeighDel tools lease.ip4 lease.interface t, true)
    else
      match ipRouteReplace tools lease.ip4 nh lease.interface t with
      | some t => (ipNeighDel tools lease.ip4 lease.interface t, true)
      | none => (t, false)
  else if lease.action = "del".toList then
    (ipNeighDel tools lease.ip4 lease.interface (ipRouteDel tools lease.ip4 t), true)
  else (t, true)

/-! ### What an event writes -/

/-- The route that an `add` or `old` puts into the kernel. -/
def programmed (tools : Tools) (lease : Lease) : Option Route4 :=
  let nh := nexthop tools.router lease.mac tools.neigh tools.probed
  if nh ≠ [] ∧ tools.replaceFault = none then
    parsedRoute tools lease.ip4 nh lease.interface
  else none

/-- The event is of a lease with an address and an interface. -/
def Lease.Complete (lease : Lease) : Prop := lease.interface ≠ [] ∧ lease.ip4 ≠ []

instance (lease : Lease) : Decidable lease.Complete := inferInstanceAs (Decidable (_ ∧ _))

/-- The event is an `add` or `old`. -/
def Lease.Renews (lease : Lease) : Prop :=
  lease.action = "add".toList ∨ lease.action = "old".toList

instance (lease : Lease) : Decidable lease.Renews := inferInstanceAs (Decidable (_ ∨ _))

/-- Who takes a turn. -/
inductive Turn
  | hook (tools : Tools) (lease : Lease)
  | others (t : Tables)

/-- One turn. The others leave the host routes of the main table alone. -/
def Step (t : Tables) (e : Turn) (t' : Tables) : Prop :=
  match e with
  | .hook tools lease => t' = (main tools lease t).1
  | .others t'' =>
      t' = t'' ∧ ∀ ip4, hostRoutes ip4 t'' = hostRoutes ip4 t

/-- The host routes that a turn leaves for an address, if it changes them. -/
def writes (ip4 : Text) (e : Turn) : Option (List Route4) :=
  match e with
  | .others _ => none
  | .hook tools lease =>
      if lease.ip4 = ip4 ∧ lease.Complete then
        if lease.Renews then (programmed tools lease).map fun r => [r]
        else if lease.action = "del".toList ∧ tools.routeDelFault = none then some []
        else none
      else none

/-- A host has one route at most, and it has no metric. -/
def Clean (t : Tables) : Prop :=
  ∀ ip4, (hostRoutes ip4 t).length ≤ 1 ∧ ∀ r ∈ hostRoutes ip4 t, r.priority = 0

section Writes

variable {tools : Tools} {lease : Lease} {t t' : Tables} {ip4 nh dev : Text} {r : Route4}

/-- The deletion of a neighbour leaves the routes alone. -/
@[simp] theorem ipNeighDel_fib : (ipNeighDel tools ip4 dev t).fib = t.fib := by
  rw [ipNeighDel]
  split
  · cases hdel : neighDel tools.neighDelFault _ ip4 t with
    | error e => rfl
    | ok t' => exact neighDel_fib hdel
  · rfl

/-- **What the script does to the routes**: it replaces one, deletes one, or leaves them. -/
theorem main_fib : (main tools lease t).1.fib =
    if lease.Complete then
      if lease.Renews then
        match programmed tools lease with
        | some r => upsertFirst r.sameKey r t.fib
        | none => t.fib
      else if lease.action = "del".toList ∧ tools.routeDelFault = none then
        t.fib.eraseP (slot lease.ip4)
      else t.fib
    else t.fib := by
  rw [main]
  by_cases hcomplete : lease.Complete
  · rw [if_neg (not_or.mpr hcomplete), if_pos hcomplete]
    by_cases hrenews : lease.Renews
    · have hrenews' : lease.action = "add".toList ∨ lease.action = "old".toList := hrenews
      rw [if_pos hrenews, if_pos hrenews', programmed]
      simp only
      by_cases hnh : nexthop tools.router lease.mac tools.neigh tools.probed = []
      · simp [hnh]
      · rw [if_neg hnh, ipRouteReplace]
        cases hroute : parsedRoute tools lease.ip4
            (nexthop tools.router lease.mac tools.neigh tools.probed) lease.interface with
        | none => simp
        | some r =>
            cases hfault : tools.replaceFault with
            | none => simp [hnh, Except.toOption]
            | some e => simp [routeReplace, Except.toOption]
    · have hrenews' : ¬ (lease.action = "add".toList ∨ lease.action = "old".toList) := hrenews
      rw [if_neg hrenews, if_neg hrenews']
      by_cases hdel : lease.action = "del".toList
      · cases hfault : tools.routeDelFault <;> simp [hdel, hfault, ipRouteDel]
      · rw [if_neg hdel, if_neg fun h => hdel h.1]
  · have hnot : lease.interface = [] ∨ lease.ip4 = [] := by
      rwa [Lease.Complete, not_and_or, not_not, not_not] at hcomplete
    rw [if_pos hnot, if_neg hcomplete]

/-- The route of a lease is one of its host, without a metric. -/
theorem of_programmed (h : programmed tools lease = some r) :
    slot lease.ip4 r = true ∧ r.priority = 0 := by
  rw [programmed] at h
  split at h
  · rw [parsedRoute] at h
    split at h
    · obtain rfl := Option.some.inj h
      exact ⟨decide_eq_true ⟨rfl, rfl, rfl, rfl⟩, rfl⟩
    · cases h
  · cases h

/-- No route is one of two hosts. -/
theorem slot_eq_false {ip4' : Text} (hr : slot ip4 r = true) (hne : ip4' ≠ ip4) :
    slot ip4' r = false := by
  have hdst := (of_decide_eq_true hr).2.1
  exact decide_eq_false fun h => hne (h.2.1.symm.trans hdst)

/-- In a clean table the route that is replaced is that of the host. -/
theorem filter_replace (hclean : Clean t) (hr : slot ip4 r = true) (hpriority : r.priority = 0)
    (ip4' : Text) : (upsertFirst r.sameKey r t.fib).filter (slot ip4') =
      if ip4 = ip4' then [r] else hostRoutes ip4' t := by
  have hkey : ∀ x ∈ t.fib, r.sameKey x = slot ip4 x := by
    intro x hx
    obtain ⟨htable, hdst, hlen, htos⟩ := of_decide_eq_true hr
    rw [Route4.sameKey, slot, htable, hdst, hlen, htos, hpriority, decide_eq_decide]
    refine ⟨fun h => ⟨h.1, h.2.1, h.2.2.1, h.2.2.2.1⟩, fun h => ?_⟩
    have hmem : x ∈ hostRoutes ip4 t := List.mem_filter.mpr ⟨hx, decide_eq_true h⟩
    exact ⟨h.1, h.2.1, h.2.2.1, h.2.2.2, (hclean ip4).2 x hmem⟩
  rw [upsertFirst_congr hkey]
  split
  · rename_i heq
    subst heq
    have hone : ((t.fib.filter (slot ip4)).tail).length = 0 := by
      have hlength := (hclean ip4).1
      rw [hostRoutes] at hlength
      rw [List.length_tail]
      omega
    rw [filter_upsertFirst_self hr, List.eq_nil_of_length_eq_zero hone]
  · rename_i hne
    refine (filter_upsertFirst_iff (slot_eq_false hr (Ne.symm hne))).mpr fun x hx => ?_
    exact slot_eq_false (List.find?_some hx) (Ne.symm hne)

/-- In a clean table nothing is left of the routes that are deleted. -/
theorem filter_delete (hclean : Clean t) (ip4 ip4' : Text) :
    (t.fib.eraseP (slot ip4)).filter (slot ip4') =
      if ip4 = ip4' then [] else hostRoutes ip4' t := by
  split
  · rename_i heq
    subst heq
    have hlength := (hclean ip4).1
    rw [hostRoutes] at hlength
    rw [filter_eraseP_self]
    exact List.eq_nil_of_length_eq_zero (by rw [List.length_tail]; omega)
  · rename_i hne
    exact filter_eraseP fun x _ hx => slot_eq_false hx (Ne.symm hne)

/-- What is written is clean. -/
theorem of_writes {e : Turn} {rs : List Route4} (h : writes ip4 e = some rs) :
    rs.length ≤ 1 ∧ ∀ r ∈ rs, r.priority = 0 := by
  cases e with
  | others t => cases h
  | hook tools lease =>
      rw [writes] at h
      split at h
      · split at h
        · obtain ⟨r, hr, rfl⟩ := Option.map_eq_some_iff.mp h
          exact ⟨le_rfl, List.forall_mem_singleton.mpr (of_programmed hr).2⟩
        · split at h
          · obtain rfl := Option.some.inj h
            exact ⟨Nat.zero_le _, nofun⟩
          · cases h
      · cases h

/-- **Everything the script can do to the routes**: it replaces the one of its host, deletes it,
or leaves them as they are. -/
theorem main_cases (tools : Tools) (lease : Lease) (t : Tables) :
    (∃ r, programmed tools lease = some r ∧
      (∀ ip4, writes ip4 (.hook tools lease) = if lease.ip4 = ip4 then some [r] else none) ∧
      (main tools lease t).1.fib = upsertFirst r.sameKey r t.fib) ∨
    ((∀ ip4, writes ip4 (.hook tools lease) = if lease.ip4 = ip4 then some [] else none) ∧
      (main tools lease t).1.fib = t.fib.eraseP (slot lease.ip4)) ∨
    (∀ ip4, writes ip4 (.hook tools lease) = none) ∧ (main tools lease t).1.fib = t.fib := by
  rw [main_fib]
  by_cases hcomplete : lease.Complete
  · by_cases hrenews : lease.Renews
    · cases hroute : programmed tools lease with
      | some r => exact .inl ⟨r, rfl, fun _ => by simp [writes, hcomplete, hrenews, hroute],
          by simp [hcomplete, hrenews]⟩
      | none => exact .inr (.inr ⟨fun _ => by simp [writes, hrenews, hroute],
          by simp [hcomplete, hrenews]⟩)
    · by_cases hdel : lease.action = "del".toList ∧ tools.routeDelFault = none
      · exact .inr (.inl ⟨fun _ => by rw [writes, if_neg hrenews, if_pos hdel]; simp [hcomplete],
          by rw [if_pos hcomplete, if_neg hrenews, if_pos hdel]⟩)
      · exact .inr (.inr ⟨fun _ => by rw [writes, if_neg hrenews, if_neg hdel, ite_self],
          by rw [if_pos hcomplete, if_neg hrenews, if_neg hdel]⟩)
  · exact .inr (.inr ⟨fun _ => by rw [writes, if_neg fun h => hcomplete h.2],
      by rw [if_neg hcomplete]⟩)

/-- **What a turn leaves**: what it writes, or what was there. -/
theorem hostRoutes_step {e : Turn} (hclean : Clean t) (hstep : Step t e t') (ip4 : Text) :
    hostRoutes ip4 t' = (writes ip4 e).getD (hostRoutes ip4 t) := by
  cases e with
  | others t'' =>
      obtain ⟨rfl, hsame⟩ := hstep
      exact hsame ip4
  | hook tools lease =>
      obtain rfl : t' = _ := hstep
      obtain ⟨r, hroute, hwrites, hfib⟩ | ⟨hwrites, hfib⟩ | ⟨hwrites, hfib⟩ :=
        main_cases tools lease t
      · obtain ⟨hr, hpriority⟩ := of_programmed hroute
        rw [hostRoutes, hfib, hwrites, filter_replace hclean hr hpriority]
        split <;> rfl
      · rw [hostRoutes, hfib, hwrites, filter_delete hclean]
        split <;> rfl
      · rw [hostRoutes, hfib, hwrites]
        rfl

/-- A turn keeps the table clean. -/
theorem clean_step {e : Turn} (hclean : Clean t) (hstep : Step t e t') : Clean t' := by
  intro ip4
  rw [hostRoutes_step hclean hstep ip4]
  cases hwrites : writes ip4 e with
  | none => exact hclean ip4
  | some rs => exact of_writes hwrites

end Writes

/-! ### Runs -/

section Runs

variable {tools : Tools} {lease : Lease} {t t' : Tables} {ip4 : Text} {r : Route4}
  {es : List Turn}

/-- **What a run leaves**: for every address what was written last, or what was there. -/
theorem hostRoutes_run (hrun : Run Step t es t') (hclean : Clean t) (ip4 : Text) :
    hostRoutes ip4 t' = ((es.filterMap (writes ip4)).getLast?).getD (hostRoutes ip4 t) := by
  have hstep : ∀ s e s', Clean s → Step s e s' →
      Clean s' ∧ hostRoutes ip4 s' = (writes ip4 e).getD (hostRoutes ip4 s) :=
    fun _ _ _ hs h => ⟨clean_step hs h, hostRoutes_step hs h ip4⟩
  exact Run.view_eq hstep hrun hclean

/-- The next hop is one that was found for the MAC of the lease: its derived GUA, which was
answered, or the address of a line of the ND cache that has the MAC in it. -/
def Found (tools : Tools) (lease : Lease) (via : IPv6) : Prop :=
  (∃ gua, builtGua tools.router lease.mac = some gua ∧ tools.router.answers gua = true ∧
    parseIPv6 (substituted gua) = some via) ∨
  ∃ line ∈ tools.neigh ++ tools.probed, mentions (lowered lease.mac) line = true ∧
    (isRoutable (field1 line) = true ∨ isLinkLocal (field1 line) = true) ∧
    parseIPv6 (field1 line) = some via

/-- What `find_nexthop` prints is an address of a line with the MAC. -/
theorem of_findNexthop {mac : Text} {lines : List Text} (h : findNexthop mac lines ≠ []) :
    ∃ line ∈ lines, mentions (lowered mac) line = true ∧
      (isRoutable (field1 line) = true ∨ isLinkLocal (field1 line) = true) ∧
      findNexthop mac lines = field1 line := by
  have hfirst : ∀ {wanted : Text → Bool}, firstField (lowered mac) wanted lines ≠ [] →
      ∃ line ∈ lines, mentions (lowered mac) line = true ∧ wanted (field1 line) = true ∧
        firstField (lowered mac) wanted lines = field1 line := by
    intro wanted hne
    rw [firstField] at hne ⊢
    cases hfind : lines.find? fun line => mentions (lowered mac) line && wanted (field1 line) with
    | none => exact absurd (by rw [hfind]; rfl) hne
    | some line =>
        have htest : (mentions (lowered mac) line && wanted (field1 line)) = true :=
          List.find?_some
            (p := fun line => mentions (lowered mac) line && wanted (field1 line)) hfind
        obtain ⟨hmentions, hwanted⟩ := Bool.and_eq_true_iff.mp htest
        exact ⟨line, List.mem_of_find?_eq_some hfind, hmentions, hwanted, rfl⟩
  rw [findNexthop_eq] at h ⊢
  split at h
  · rename_i hne
    obtain ⟨line, hline, hmentions, hwanted, heq⟩ := hfirst hne
    exact ⟨line, hline, hmentions, .inl hwanted, (if_pos hne).trans heq⟩
  · rename_i hnone
    obtain ⟨line, hline, hmentions, hwanted, heq⟩ := hfirst h
    exact ⟨line, hline, hmentions, .inr hwanted, (if_neg hnone).trans heq⟩

/-- The next hop of the script is found. -/
theorem found_of_nexthop {via : IPv6}
    (hne : nexthop tools.router lease.mac tools.neigh tools.probed ≠ [])
    (hvia : parseIPv6 (nexthop tools.router lease.mac tools.neigh tools.probed) = some via) :
    Found tools lease via := by
  rw [nexthop] at hne hvia
  by_cases hgua : substituted (guaNexthop tools.router lease.mac) = []
  · -- the derived GUA was not printed
    rw [if_pos hgua] at hne hvia
    have hlines : ∃ line ∈ tools.neigh ++ tools.probed,
        mentions (lowered lease.mac) line = true ∧
        (isRoutable (field1 line) = true ∨ isLinkLocal (field1 line) = true) ∧
        parseIPv6 (field1 line) = some via := by
      by_cases hneigh : findNexthop lease.mac tools.neigh = []
      · rw [if_pos hneigh] at hne hvia
        obtain ⟨line, hline, hmentions, hwanted, heq⟩ := of_findNexthop hne
        exact ⟨line, List.mem_append_right _ hline, hmentions, hwanted, heq ▸ hvia⟩
      · rw [if_neg hneigh] at hvia
        obtain ⟨line, hline, hmentions, hwanted, heq⟩ := of_findNexthop hneigh
        exact ⟨line, List.mem_append_left _ hline, hmentions, hwanted, heq ▸ hvia⟩
    exact .inr hlines
  · rw [if_neg hgua, if_neg hgua] at hvia
    rw [guaNexthop] at hgua hvia
    cases hbuilt : builtGua tools.router lease.mac with
    | none =>
        rw [hbuilt] at hgua
        exact absurd rfl hgua
    | some gua =>
        rw [hbuilt] at hgua hvia
        cases hanswer : tools.router.answers gua with
        | false =>
            simp only [hanswer] at hgua
            exact absurd rfl hgua
        | true =>
            simp only [hanswer, if_true] at hvia
            rw [substituted, List.rdropWhile_concat_pos _ _ _ rfl] at hvia
            exact .inl ⟨gua, hbuilt, hanswer, hvia⟩

/-- **Where a next hop comes from.** -/
theorem found_of_programmed (h : programmed tools lease = some r) :
    ∃ via idx, r = leaseRoute lease.ip4 idx via ∧ tools.ifindex lease.interface = some idx ∧
      Found tools lease via := by
  rw [programmed] at h
  split at h
  · rename_i hnh
    rw [parsedRoute] at h
    split at h
    · rename_i via idx hvia hidx
      obtain rfl := Option.some.inj h
      exact ⟨via, idx, rfl, hidx, found_of_nexthop hnh.1 hvia⟩
    · cases h
  · cases h

/-- A route is written by an `add` or `old` of its address. -/
theorem of_mem_writes {e : Turn} {rs : List Route4} (h : writes ip4 e = some rs) (hr : r ∈ rs) :
    ∃ tools lease, e = .hook tools lease ∧ lease.Complete ∧ lease.Renews ∧ lease.ip4 = ip4 ∧
      programmed tools lease = some r := by
  cases e with
  | others t => cases h
  | hook tools lease =>
      rw [writes] at h
      split at h
      · rename_i hlease
        split at h
        · rename_i hrenews
          obtain ⟨x, hx, rfl⟩ := Option.map_eq_some_iff.mp h
          obtain rfl := List.mem_singleton.mp hr
          exact ⟨tools, lease, rfl, hlease.2, hrenews, hlease.1, hx⟩
        · split at h
          · obtain rfl := Option.some.inj h
            cases hr
          · cases h
      · cases h

/-- **Which routes are in the kernel**: after a run that begins without a route to the host, a
host route is there exactly if the last turn that wrote one for its address was an `add` or `old`
that put it there; its next hop is one that this event has found for its MAC. -/
theorem mem_hostRoutes_iff (hrun : Run Step t es t') (hclean : Clean t)
    (hnone : hostRoutes ip4 t = []) :
    r ∈ hostRoutes ip4 t' ↔
      ∃ es₁ tools lease es₂ idx via, es = es₁ ++ .hook tools lease :: es₂ ∧
        lease.Complete ∧ lease.Renews ∧ lease.ip4 = ip4 ∧ programmed tools lease = some r ∧
        r = leaseRoute ip4 idx via ∧ tools.ifindex lease.interface = some idx ∧
        Found tools lease via ∧ ∀ e ∈ es₂, writes ip4 e = none := by
  have hlast : r ∈ hostRoutes ip4 t' ↔
      ∃ rs, (es.filterMap (writes ip4)).getLast? = some rs ∧ r ∈ rs := by
    rw [hostRoutes_run hrun hclean ip4, hnone]
    cases (es.filterMap (writes ip4)).getLast? <;> simp
  rw [hlast]
  constructor
  · rintro ⟨rs, hrs, hr⟩
    obtain ⟨es₁, e, es₂, rfl, hwrites, hbehind⟩ := getLast?_filterMap_eq_some_iff.mp hrs
    obtain ⟨tools, lease, rfl, hcomplete, hrenews, hip, hroute⟩ := of_mem_writes hwrites hr
    obtain ⟨via, idx, heq, hidx, hfound⟩ := found_of_programmed hroute
    exact ⟨es₁, tools, lease, es₂, idx, via, rfl, hcomplete, hrenews, hip, hroute, hip ▸ heq, hidx,
      hfound, hbehind⟩
  · rintro ⟨es₁, tools, lease, es₂, idx, via, rfl, hcomplete, hrenews, hip, hroute, -, -, -,
      hbehind⟩
    have hwrites : writes ip4 (.hook tools lease) = some [r] := by
      rw [writes, if_pos ⟨hip, hcomplete⟩, if_pos hrenews, hroute]
      rfl
    exact ⟨[r], getLast?_filterMap_eq_some_iff.mpr ⟨es₁, _, es₂, rfl, hwrites, hbehind⟩,
      List.mem_singleton_self r⟩

end Runs

/-- The tools on the router of the testbed. -/
def testbedTools : Tools where
  router := testbedRouter
  neigh := twoLines
  probed := twoLines
  ifindex _ := some 3
  replaceFault := none
  routeDelFault := none
  neighDelFault := none

/-- A lease of the host, and the end of another one. -/
def ownLease : Lease := ⟨"add".toList, hostMac, "192.0.2.5".toList, "eth0".toList⟩

def otherLease : Lease := ⟨"del".toList, hostMac, "192.0.2.6".toList, "eth0".toList⟩

/-- The route of the host. -/
def ownRoute : Route4 :=
  leaseRoute "192.0.2.5".toList 3 0x20010db80000000000000000000000aa#128

theorem twoTurns_run : Run Step ⟨[], []⟩
    [.hook testbedTools ownLease, .hook testbedTools otherLease] ⟨[ownRoute], []⟩ := by
  have hown : (⟨[ownRoute], []⟩ : Tables) = (main testbedTools ownLease ⟨[], []⟩).1 := by decide
  have hother : (⟨[ownRoute], []⟩ : Tables) =
      (main testbedTools otherLease ⟨[ownRoute], []⟩).1 := by decide
  exact .cons hown (Run.single hother)

/-- The route is there after both, and its next hop is one of the host's addresses. -/
theorem ownRoute_found : ∃ es₁ tools lease es₂ idx via,
    [Turn.hook testbedTools ownLease, .hook testbedTools otherLease] =
      es₁ ++ .hook tools lease :: es₂ ∧
    lease.Complete ∧ lease.Renews ∧ lease.ip4 = "192.0.2.5".toList ∧
    programmed tools lease = some ownRoute ∧
    ownRoute = leaseRoute "192.0.2.5".toList idx via ∧
    tools.ifindex lease.interface = some idx ∧ Found tools lease via ∧
    ∀ e ∈ es₂, writes "192.0.2.5".toList e = none :=
  (mem_hostRoutes_iff twoTurns_run (fun _ => ⟨Nat.zero_le _, nofun⟩) rfl).mp (by decide)

end V4WithV6Nh.LeaseScript
