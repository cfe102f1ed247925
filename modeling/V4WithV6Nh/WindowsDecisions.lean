import V4WithV6Nh.WindowsPasses

/-!
# Where the Service and the Script on Windows Decide Alike

A first pass of `v4gwd.c` and a pass of `v4gwd.ps1` gate and select the router in the same
way. They differ in what counts as a resolved link-layer address (six bytes for the service,
neither empty nor zero for the script), in how a stored value is read, and in what is
removed. So it depends on the addresses that the neighbour table has for the router whether
the two decide alike.

## Main results

* `sameOutcome_iff`: the two passes leave the same entry and the same stored value exactly in
  the states of `Alike`.
* `Managed.alike_of_ordinary`: these include every state in which each neighbour entry has no
  address or six bytes that are not all zero, the stored value is one that a daemon wrote,
  and no permanent entry was left behind.
* `service_and_script_part`: two ways in which they part.
-/

namespace V4WithV6Nh.PowershellDaemon

open WindowsDaemon

/-! ### The addresses of the router -/

section Addresses

variable {S : Shell} {cfg : Config} {w : World} {luid ifIndex : ℕ} {bytes bytes' : List UInt8}
  {mac : Mac}

/-- Six zero bytes. -/
def zeroMac : Mac := .replicate 6 0

/-- The link-layer addresses of the router's entries in the neighbour table. -/
def routerAddresses (luid : ℕ) (w : World) : List (List UInt8) :=
  match findDefaultRouter luid w.forward6 with
  | none => []
  | some gw => (w.net6.filter fun r => r.interfaceLuid = luid && r.address = .ipv6 gw).map
      NetRow.physicalAddress

/-- The first address of the router that is not empty. -/
def firstAddress (luid : ℕ) (w : World) : Option (List UInt8) :=
  (routerAddresses luid w).find? fun b => b ≠ []

/-- Different addresses have different texts, for `-eq` too. -/
theorem Shell.eq_linkLayerText_iff :
    S.eq (linkLayerText bytes) (linkLayerText bytes') = true ↔ bytes = bytes' := by
  constructor
  · intro h
    have hread := S.parse_of_eq _ _ h
    rw [S.parse_of_eq _ _ (S.eq_refl (linkLayerText bytes))] at hread
    exact Option.some.inj hread
  · rintro rfl
    exact S.eq_refl _

/-- The text of an address is empty only if the address is. -/
theorem linkLayerText_eq_nil_iff : linkLayerText bytes = [] ↔ bytes = [] := by
  rw [← List.length_eq_zero_iff, linkLayerText, length_bytesText, ← List.length_eq_zero_iff]
  omega

/-- The script takes an address for resolved if it is neither empty nor zero. -/
theorem isResolved_linkLayerText :
    isResolved S (linkLayerText bytes) = decide (bytes ≠ [] ∧ bytes ≠ zeroMac.toList) := by
  have hzero : "00-00-00-00-00-00".toList = linkLayerText zeroMac.toList := by decide
  rw [Bool.eq_iff_iff, decide_eq_true_eq, isResolved, Bool.and_eq_true, decide_eq_true_eq,
    Bool.not_eq_true', ← Bool.not_eq_true, hzero, Shell.eq_linkLayerText_iff, ne_eq,
    linkLayerText_eq_nil_iff]

/-- The service resolves the first address of six bytes. -/
theorem resolvedMac_toList : (WindowsDaemon.resolvedMac .succeed luid w).map List.Vector.toList =
    (routerAddresses luid w).find? fun b => b.length = 6 := by
  change ((findDefaultRouter luid w.forward6).bind fun gw =>
    routerLladdr luid gw w.net6).map List.Vector.toList = _
  rw [routerAddresses]
  cases findDefaultRouter luid w.forward6 with
  | none => rfl
  | some gw =>
      rw [Option.bind_some, routerLladdr, List.find?_map, List.find?_filter,
        List.find?_eq_findSome?_guard, List.map_findSome?, List.map_findSome?]
      congr 1
      funext r
      rw [Function.comp_apply, Function.comp_apply, lladdrOf, Option.guard]
      by_cases hluid : r.interfaceLuid = luid
      · by_cases haddr : r.address = .ipv6 gw
        · by_cases hlength : r.physicalAddress.length = 6
          · rw [if_neg (not_not.mpr hluid), if_neg (not_not.mpr haddr), dif_pos hlength,
              if_pos (by simp [hluid, haddr, hlength])]
            rfl
          · simp [hluid, haddr, hlength]
        · simp [hluid, haddr]
      · simp [hluid]

/-- The script resolves the first address that is neither empty nor zero. -/
theorem Managed.resolvedMac_eq (h : Managed cfg w luid ifIndex) : resolvedMac S w ifIndex =
    ((routerAddresses luid w).find? fun b => b ≠ [] ∧ b ≠ zeroMac.toList).map linkLayerText := by
  rw [resolvedMac, h.router_eq, routerAddresses]
  cases findDefaultRouter luid w.forward6 with
  | none => rfl
  | some gw =>
      have htexts : ∀ rows : List NetRow, rows.map (fun r => linkLayerText r.physicalAddress) =
          (rows.map NetRow.physicalAddress).map linkLayerText := by
        intro rows
        rw [List.map_map]
        rfl
      have htest : isResolved S ∘ linkLayerText =
          fun b => decide (b ≠ [] ∧ b ≠ zeroMac.toList) := by
        funext b
        exact isResolved_linkLayerText
      rw [Option.bind_some, h.getRouterMac_eq, htexts, List.find?_map, htest]

/-- The first address is not empty. -/
theorem ne_nil_of_first (hfirst : firstAddress luid w = some bytes) : bytes ≠ [] := by
  rw [firstAddress] at hfirst
  simpa using List.find?_some hfirst

/-- The service resolves the first address if that is a MAC. -/
theorem resolvedMac_of_first (hfirst : firstAddress luid w = some mac.toList) :
    WindowsDaemon.resolvedMac .succeed luid w = some mac := by
  have hsix : (routerAddresses luid w).find? (fun b => b.length = 6) = some mac.toList := by
    refine find?_eq_some_of_imp (fun b hb => ?_) hfirst (decide_eq_true mac.toList_length)
    rw [decide_eq_true_eq] at hb ⊢
    rintro rfl
    cases hb
  rw [← resolvedMac_toList] at hsix
  exact Option.map_injective List.Vector.toList_injective hsix

/-- The service resolves nothing if no address has six bytes. -/
theorem resolvedMac_eq_none_iff : WindowsDaemon.resolvedMac .succeed luid w = none ↔
    ∀ b ∈ routerAddresses luid w, b.length ≠ 6 := by
  rw [← Option.map_eq_none_iff, resolvedMac_toList, List.find?_eq_none]
  simp only [decide_eq_true_eq, ne_eq]

/-- The script resolves the first address if that is not zero. -/
theorem Managed.resolvedMac_of_first (h : Managed cfg w luid ifIndex)
    (hfirst : firstAddress luid w = some bytes) (hne : bytes ≠ zeroMac.toList) :
    resolvedMac S w ifIndex = some (linkLayerText bytes) := by
  have hfilled := ne_nil_of_first hfirst
  rw [h.resolvedMac_eq, find?_eq_some_of_imp (fun b hb => ?_) hfirst
    (decide_eq_true ⟨hfilled, hne⟩)]
  · rfl
  · exact decide_eq_true (of_decide_eq_true hb).1

/-- The script resolves nothing if every address is empty or zero. -/
theorem Managed.resolvedMac_eq_none_iff (h : Managed cfg w luid ifIndex) :
    resolvedMac S w ifIndex = none ↔
      ∀ b ∈ routerAddresses luid w, b = [] ∨ b = zeroMac.toList := by
  rw [h.resolvedMac_eq, Option.map_eq_none_iff, List.find?_eq_none]
  simp only [decide_eq_true_eq, not_and, ne_eq, not_not, or_iff_not_imp_left]

/-- What the script resolves is read back as an address that is not zero. -/
theorem Managed.parse_resolvedMac {text : Text} (h : Managed cfg w luid ifIndex)
    (hresolved : resolvedMac S w ifIndex = some text) :
    S.parse text ≠ some zeroMac.toList := by
  rw [h.resolvedMac_eq, Option.map_eq_some_iff] at hresolved
  obtain ⟨b, hb, rfl⟩ := hresolved
  have hfound := List.find?_some hb
  rw [decide_eq_true_eq] at hfound
  rw [S.parse_of_eq _ _ (S.eq_refl (linkLayerText b)), ne_eq, Option.some.injEq]
  exact hfound.2

end Addresses

/-! ### The states in which the two decide alike -/

section Alike

variable {I : IpHelper} {S : Shell} {cfg : Config} {w : World} {luid ifIndex : ℕ} {mac : Mac}
  {text : Text}

/-- The service, having resolved the MAC, has nothing to store: it does not know the own MAC
of the interface, or reads this MAC from the stored value. -/
def serviceUpToDate (w : World) (luid : ℕ) (mac : Mac) : Bool :=
  (interfaceMac .succeed w luid).all fun host =>
    routerCacheLookup .succeed w.registry host = some mac

/-- The script, having resolved the MAC, has nothing to store: it does not know the own MAC
of the interface, or the stored value is this text, but for the case. -/
def scriptUpToDate (S : Shell) (w : World) (ifIndex : ℕ) (mac : Text) : Bool :=
  (getInterfaceMac w ifIndex).all fun hostMac =>
    (w.registry hostMac).any fun cached => S.eq cached mac

/-- The states in which the service and the script decide alike, by the gate and by what the
neighbour table has for the router. -/
inductive Alike (S : Shell) (cfg : Config) (w : World) (luid ifIndex : ℕ) : Prop
  /-- The gate is closed, and the script finds nothing on the interface to remove. -/
  | closed (hgate : WindowsDaemon.gate .succeed cfg luid w = false)
      (hleft : ¬ LeftoverFirst luid w.net4)
  /-- The router has a MAC, and the two agree whether it is stored already. -/
  | resolved (mac : Mac) (hgate : WindowsDaemon.gate .succeed cfg luid w = true)
      (hfirst : firstAddress luid w = some mac.toList) (hne : mac ≠ zeroMac)
      (hupdate : serviceUpToDate w luid mac = scriptUpToDate S w ifIndex (macStrReg mac))
  /-- The router has no address, and what is stored leads both to the same entry. -/
  | unresolved (hgate : WindowsDaemon.gate .succeed cfg luid w = true)
      (hfirst : firstAddress luid w = none)
      (hentry : SameEntry S luid w.net4 (WindowsDaemon.storedMac .succeed luid w)
        (storedMac w ifIndex))
  /-- The router has the zero address and no other; what is stored leads the script to it
  too, and the service need not store it. -/
  | zero (hgate : WindowsDaemon.gate .succeed cfg luid w = true)
      (hfirst : firstAddress luid w = some zeroMac.toList)
      (hall : ∀ b ∈ routerAddresses luid w, b = [] ∨ b = zeroMac.toList)
      (hentry : SameEntry S luid w.net4 (some zeroMac) (storedMac w ifIndex))
      (hupdate : serviceUpToDate w luid zeroMac = true)
  /-- The router has an address of another length, and none of six bytes; what is stored
  leads the service to it too, and the script need not store it. -/
  | odd (bytes : List UInt8) (hgate : WindowsDaemon.gate .succeed cfg luid w = true)
      (hfirst : firstAddress luid w = some bytes)
      (hall : ∀ b ∈ routerAddresses luid w, b.length ≠ 6)
      (hentry : SameEntry S luid w.net4 (WindowsDaemon.storedMac .succeed luid w)
        (some (linkLayerText bytes)))
      (hupdate : scriptUpToDate S w ifIndex (linkLayerText bytes) = true)

/-- The service stores what it resolves unless it is up to date. -/
theorem serviceWrite_eq (hgate : WindowsDaemon.gate .succeed cfg luid w = true) :
    serviceWrite cfg luid w = (WindowsDaemon.resolvedMac .succeed luid w).bind fun mac =>
      if serviceUpToDate w luid mac then none else some (macStrReg mac) := by
  rw [serviceWrite, if_pos hgate]
  cases WindowsDaemon.resolvedMac .succeed luid w with
  | none => rfl
  | some mac =>
      rw [Option.bind_some, serviceUpToDate]
      cases interfaceMac .succeed w luid with
      | none => rfl
      | some host => simp only [Option.all_some, decide_eq_true_eq]

/-- The script stores what it resolves unless it is up to date. -/
theorem Managed.cacheWrite_eq (h : Managed cfg w luid ifIndex)
    (hgate : WindowsDaemon.gate .succeed cfg luid w = true) :
    cacheWrite S cfg w ifIndex = (resolvedMac S w ifIndex).bind fun mac =>
      if scriptUpToDate S w ifIndex mac then none else some mac := by
  rw [cacheWrite, if_pos (h.script_gate.trans hgate)]
  cases resolvedMac S w ifIndex with
  | none => rfl
  | some mac =>
      rw [Option.bind_some, scriptUpToDate]
      cases getInterfaceMac w ifIndex with
      | none => rfl
      | some hostMac => rfl

/-- Both decide to leave the same entry and the same stored value. -/
def SameDecision (S : Shell) (cfg : Config) (w : World) (luid ifIndex : ℕ) : Prop :=
  SameEntry S luid w.net4 (WindowsDaemon.action .succeed cfg luid w).mac
      (action S cfg w ifIndex).mac ∧
    serviceWrite cfg luid w = cacheWrite S cfg w ifIndex

/-- Behind a closed gate neither pins or stores anything. -/
theorem Managed.sameDecision_closed (h : Managed cfg w luid ifIndex)
    (hgate : WindowsDaemon.gate .succeed cfg luid w = false) :
    SameDecision S cfg w luid ifIndex ↔ ¬ LeftoverFirst luid w.net4 := by
  have hscript : gate cfg w ifIndex = false := h.script_gate.trans hgate
  rw [SameDecision, WindowsDaemon.action, action, pinAction_mac, pinAction_mac, serviceWrite,
    cacheWrite, hgate, hscript]
  exact and_iff_left rfl

/-- Behind an open gate it is what each resolves, or has stored. -/
theorem Managed.sameDecision_open {resolved : Option Mac} {resolved' : Option Text}
    (h : Managed cfg w luid ifIndex) (hgate : WindowsDaemon.gate .succeed cfg luid w = true)
    (hservice : WindowsDaemon.resolvedMac .succeed luid w = resolved)
    (hscript : resolvedMac S w ifIndex = resolved') :
    SameDecision S cfg w luid ifIndex ↔
      SameEntry S luid w.net4 (resolved.or (WindowsDaemon.storedMac .succeed luid w))
          (resolved'.or (storedMac w ifIndex)) ∧
        (resolved.bind fun mac =>
          if serviceUpToDate w luid mac then none else some (macStrReg mac)) =
        resolved'.bind fun mac =>
          if scriptUpToDate S w ifIndex mac then none else some mac := by
  have hgate' : gate cfg w ifIndex = true := h.script_gate.trans hgate
  rw [SameDecision, WindowsDaemon.action, action, pinAction_mac, pinAction_mac,
    serviceWrite_eq hgate, h.cacheWrite_eq hgate, hgate, hgate', if_pos rfl, if_pos rfl,
    hservice, hscript]

/-- Two that store the same text, or not, are up to date together. -/
theorem upToDate_of_write {service script : Bool} (h : (if service then none else some text) =
    if script then none else some text) : service = script := by
  cases service <;> cases script <;> first | rfl | cases h

/-- For a router without an address it is what is stored. -/
theorem Managed.sameDecision_unresolved (h : Managed cfg w luid ifIndex)
    (hgate : WindowsDaemon.gate .succeed cfg luid w = true)
    (hfirst : firstAddress luid w = none) :
    SameDecision S cfg w luid ifIndex ↔
      SameEntry S luid w.net4 (WindowsDaemon.storedMac .succeed luid w)
        (storedMac w ifIndex) := by
  have hempty : ∀ b ∈ routerAddresses luid w, b = [] := by
    simpa [firstAddress] using hfirst
  have hservice : WindowsDaemon.resolvedMac .succeed luid w = none := by
    refine PowershellDaemon.resolvedMac_eq_none_iff.mpr fun b hb => ?_
    rw [hempty b hb]
    decide
  have hscript : resolvedMac S w ifIndex = none :=
    h.resolvedMac_eq_none_iff.mpr fun b hb => Or.inl (hempty b hb)
  rw [h.sameDecision_open hgate hservice hscript, Option.none_or, Option.none_or]
  exact and_iff_left rfl

/-- In each kind of state both decide the same. -/
theorem Managed.sameDecision_of_alike (h : Managed cfg w luid ifIndex)
    (halike : Alike S cfg w luid ifIndex) : SameDecision S cfg w luid ifIndex := by
  cases halike with
  | closed hgate hleft => exact (h.sameDecision_closed hgate).mpr hleft
  | resolved mac hgate hfirst hne hupdate =>
      have hne' : mac.toList ≠ zeroMac.toList := fun heq => hne (List.Vector.toList_injective heq)
      refine (h.sameDecision_open hgate (PowershellDaemon.resolvedMac_of_first hfirst)
        (h.resolvedMac_of_first hfirst hne')).mpr ⟨?_, ?_⟩
      · exact S.parse_of_eq _ _ (S.eq_refl (linkLayerText mac.toList))
      · rw [Option.bind_some, Option.bind_some, hupdate]
        rfl
  | unresolved hgate hfirst hentry => exact (h.sameDecision_unresolved hgate hfirst).mpr hentry
  | zero hgate hfirst hall hentry hupdate =>
      refine (h.sameDecision_open hgate (PowershellDaemon.resolvedMac_of_first hfirst)
        (h.resolvedMac_eq_none_iff.mpr hall)).mpr ⟨hentry, ?_⟩
      rw [Option.bind_some, if_pos hupdate]
      rfl
  | odd bytes hgate hfirst hall hentry hupdate =>
      have hne : bytes ≠ zeroMac.toList := by
        rintro rfl
        exact hall _ (List.mem_of_find?_eq_some hfirst) rfl
      refine (h.sameDecision_open hgate (PowershellDaemon.resolvedMac_eq_none_iff.mpr hall)
        (h.resolvedMac_of_first hfirst hne)).mpr ⟨?_, ?_⟩
      · rw [Option.none_or]
        exact hentry
      · rw [Option.bind_some, if_pos hupdate]
        rfl

section First

variable (h : Managed cfg w luid ifIndex)
  (hgate : WindowsDaemon.gate .succeed cfg luid w = true)
  (hsame : SameDecision S cfg w luid ifIndex)

include h hgate hsame

/-- With the zero address first, both decide the same only for want of another one. -/
theorem Managed.alike_of_zero (hfirst : firstAddress luid w = some zeroMac.toList) :
    Alike S cfg w luid ifIndex := by
  have hservice := PowershellDaemon.resolvedMac_of_first hfirst
  cases hscript : resolvedMac S w ifIndex with
  | none =>
      obtain ⟨hentry, hwrite⟩ := (h.sameDecision_open hgate hservice hscript).mp hsame
      refine .zero hgate hfirst (h.resolvedMac_eq_none_iff.mp hscript) hentry ?_
      by_contra hstale
      rw [Option.bind_some, if_neg hstale] at hwrite
      cases hwrite
  | some text =>
      obtain ⟨hentry, -⟩ := (h.sameDecision_open hgate hservice hscript).mp hsame
      exact absurd hentry (h.parse_resolvedMac hscript)

/-- With a MAC first, both decide the same only if they agree whether it is stored. -/
theorem Managed.alike_of_mac (hfirst : firstAddress luid w = some mac.toList)
    (hne : mac ≠ zeroMac) : Alike S cfg w luid ifIndex := by
  have hne' : mac.toList ≠ zeroMac.toList := fun heq => hne (List.Vector.toList_injective heq)
  obtain ⟨-, hwrite⟩ := (h.sameDecision_open hgate
    (PowershellDaemon.resolvedMac_of_first hfirst) (h.resolvedMac_of_first hfirst hne')).mp hsame
  rw [Option.bind_some, Option.bind_some] at hwrite
  exact .resolved mac hgate hfirst hne (upToDate_of_write hwrite)

/-- With an address of another length first, both decide the same only for want of a MAC. -/
theorem Managed.alike_of_odd {bytes : List UInt8} (hfirst : firstAddress luid w = some bytes)
    (hlength : bytes.length ≠ 6) : Alike S cfg w luid ifIndex := by
  have hne : bytes ≠ zeroMac.toList := by
    rintro rfl
    exact hlength rfl
  have hscript := h.resolvedMac_of_first (S := S) hfirst hne
  cases hservice : WindowsDaemon.resolvedMac .succeed luid w with
  | none =>
      obtain ⟨hentry, hwrite⟩ := (h.sameDecision_open hgate hservice hscript).mp hsame
      refine .odd bytes hgate hfirst (PowershellDaemon.resolvedMac_eq_none_iff.mp hservice)
        hentry ?_
      by_contra hstale
      rw [Option.bind_some, if_neg hstale] at hwrite
      cases hwrite
  | some mac =>
      obtain ⟨hentry, -⟩ := (h.sameDecision_open hgate hservice hscript).mp hsame
      have hread : S.parse (linkLayerText bytes) = some mac.toList := hentry
      rw [S.parse_of_eq _ _ (S.eq_refl _), Option.some.injEq] at hread
      exact absurd (hread ▸ mac.toList_length) hlength

end First

/-- Both decide the same in no other state. -/
theorem Managed.alike_of_sameDecision (h : Managed cfg w luid ifIndex)
    (hsame : SameDecision S cfg w luid ifIndex) : Alike S cfg w luid ifIndex := by
  cases hgate : WindowsDaemon.gate .succeed cfg luid w with
  | false => exact .closed hgate ((h.sameDecision_closed hgate).mp hsame)
  | true =>
      cases hfirst : firstAddress luid w with
      | none => exact .unresolved hgate hfirst ((h.sameDecision_unresolved hgate hfirst).mp hsame)
      | some bytes =>
          by_cases hlength : bytes.length = 6
          · obtain ⟨mac, rfl⟩ : ∃ mac : Mac, bytes = mac.toList := ⟨⟨bytes, hlength⟩, rfl⟩
            by_cases hzero : mac = zeroMac
            · subst hzero
              exact h.alike_of_zero hgate hsame hfirst
            · exact h.alike_of_mac hgate hsame hfirst hzero
          · exact h.alike_of_odd hgate hsame hfirst hlength

/-- **Exactly when the service and the script decide alike**: for every state with at most one
entry for the sentinel on the interface, in which no call of either fails. -/
theorem sameOutcome_iff (h : Managed cfg w luid ifIndex)
    (huniq : AtMostOne (isSentinelEntry luid) w.net4)
    (hok : (invokeReconcile I S cfg w).1 = .ok ()) :
    SameOutcome I S cfg w luid ↔ Alike S cfg w luid ifIndex := by
  have halike : SameDecision S cfg w luid ifIndex ↔ Alike S cfg w luid ifIndex :=
    ⟨h.alike_of_sameDecision, h.sameDecision_of_alike⟩
  rw [h.invokeReconcile_eq] at hok
  rw [SameOutcome, h.invokeReconcile_eq, ← halike]
  exact and_congr (h.sameEntry_iff huniq hok) (h.sameStored_iff hok)

end Alike

/-! ### Ordinary states -/

section Ordinary

variable {S : Shell} {cfg : Config} {w : World} {luid ifIndex : ℕ}

/-- An unresolved or an ordinary link-layer address. -/
def OrdinaryAddress (bytes : List UInt8) : Prop :=
  bytes = [] ∨ bytes.length = 6 ∧ bytes ≠ zeroMac.toList

/-- The addresses are ordinary ones, the stored value is one that a daemon has written, and
the first permanent entry for the sentinel is not on the interface. -/
structure Ordinary (w : World) (luid : ℕ) : Prop where
  own : ∀ own, w.ifEntry luid = some own → own = [] ∨ own.length = 6
  neighbours : ∀ r ∈ w.net6, OrdinaryAddress r.physicalAddress
  stored : ∀ own value, w.ifEntry luid = some own →
    w.registry (linkLayerText own) = some value → ∃ mac : Mac, value = macStrReg mac
  noLeftover : ¬ LeftoverFirst luid w.net4

/-- The text of six bytes is not empty. -/
theorem macStrReg_ne_nil (mac : Mac) : macStrReg mac ≠ [] := by
  rw [macStrReg, ← linkLayerText, ne_eq, linkLayerText_eq_nil_iff]
  intro h
  have hlength := mac.toList_length
  rw [h] at hlength
  cases hlength

/-- Both know the own MAC, and what is stored for it, or neither does. -/
theorem Managed.own_of_ordinary (h : Managed cfg w luid ifIndex) (ho : Ordinary w luid) :
    (getInterfaceMac w ifIndex = none ∧ interfaceMac .succeed w luid = none) ∨
    ∃ host, interfaceMac .succeed w luid = some host ∧
      getInterfaceMac w ifIndex = some (macStrReg host) ∧
        w.registry (macStrReg host) =
          (routerCacheLookup .succeed w.registry host).map macStrReg := by
  rw [h.getInterfaceMac_eq]
  cases hown : w.ifEntry luid with
  | none => exact Or.inl ⟨rfl, by simp [interfaceMac, Calls.succeed, hown]⟩
  | some own =>
      rcases ho.own own hown with rfl | hlength
      · exact Or.inl ⟨by simp [linkLayerText, bytesText],
          by simp [interfaceMac, Calls.succeed, hown]⟩
      · have hhost : interfaceMac .succeed w luid = some ⟨own, hlength⟩ := by
          simp [interfaceMac, Calls.succeed, hown, hlength]
        have htext : linkLayerText own = macStrReg ⟨own, hlength⟩ := rfl
        refine Or.inr ⟨⟨own, hlength⟩, hhost, ?_, ?_⟩
        · rw [Option.map_some, htext, Option.filter_some, if_pos]
          simpa using macStrReg_ne_nil ⟨own, hlength⟩
        · cases hvalue : w.registry (macStrReg ⟨own, hlength⟩) with
          | none => simp [routerCacheLookup, Calls.succeed, hvalue]
          | some value =>
              obtain ⟨mac, rfl⟩ := ho.stored own value hown hvalue
              rw [routerCacheLookup_of_registry hvalue]
              rfl

/-- In an ordinary state the first address of the router is a MAC. -/
theorem Ordinary.of_first {bytes : List UInt8} (ho : Ordinary w luid)
    (hfirst : firstAddress luid w = some bytes) :
    bytes.length = 6 ∧ bytes ≠ zeroMac.toList := by
  have hfilled := ne_nil_of_first hfirst
  have hmem := List.mem_of_find?_eq_some hfirst
  rw [routerAddresses] at hmem
  split at hmem
  · cases hmem
  · obtain ⟨r, hr, rfl⟩ := List.mem_map.mp hmem
    exact (ho.neighbours r (List.mem_of_mem_filter hr)).resolve_left hfilled

/-- **In an ordinary state both decide alike.** -/
theorem Managed.alike_of_ordinary (h : Managed cfg w luid ifIndex) (ho : Ordinary w luid) :
    Alike S cfg w luid ifIndex := by
  cases hgate : WindowsDaemon.gate .succeed cfg luid w with
  | false => exact .closed hgate ho.noLeftover
  | true =>
      cases hfirst : firstAddress luid w with
      | none =>
          refine .unresolved hgate hfirst ?_
          rw [storedMac, WindowsDaemon.storedMac]
          obtain ⟨hscript, hservice⟩ | ⟨host, hservice, hscript, hvalue⟩ := h.own_of_ordinary ho
          · rw [hscript, hservice]
            exact ho.noLeftover
          · rw [hscript, hservice, Option.bind_some, Option.bind_some, hvalue]
            cases routerCacheLookup .succeed w.registry host with
            | none => exact ho.noLeftover
            | some mac =>
                rw [Option.map_some, Option.filter_some,
                  if_pos (decide_eq_true (macStrReg_ne_nil mac))]
                exact S.parse_of_eq _ _ (S.eq_refl (linkLayerText mac.toList))
      | some bytes =>
          obtain ⟨hlength, hne⟩ := ho.of_first hfirst
          obtain ⟨mac, rfl⟩ : ∃ mac : Mac, bytes = mac.toList := ⟨⟨bytes, hlength⟩, rfl⟩
          refine .resolved mac hgate hfirst (fun heq => hne (heq ▸ rfl)) ?_
          simp only [serviceUpToDate, scriptUpToDate]
          obtain ⟨hscript, hservice⟩ | ⟨host, hservice, hscript, hvalue⟩ := h.own_of_ordinary ho
          · rw [hscript, hservice]
            rfl
          · rw [hscript, hservice, Option.all_some, Option.all_some, hvalue]
            cases routerCacheLookup .succeed w.registry host with
            | none => rfl
            | some cached =>
                have hsame : S.eq (macStrReg cached) (macStrReg mac) = true ↔ cached = mac :=
                  Shell.eq_linkLayerText_iff.trans List.Vector.toList_injective.eq_iff
                rw [Bool.eq_iff_iff, Option.map_some, Option.any_some, hsame]
                simp only [decide_eq_true_eq, Option.some.injEq]

end Ordinary

/-! ### States in which they part -/

/-- The text of an address is in upper case. -/
theorem map_toUpper_linkLayerText (bytes : List UInt8) :
    (linkLayerText bytes).map Char.toUpper = linkLayerText bytes := by
  have hdigit : ∀ n < 16, (upperDigit n).toUpper = upperDigit n := by decide
  refine (List.map_congr_left fun c hc => ?_).trans (List.map_id _)
  rcases mem_bytesText hc with rfl | ⟨n, hn, rfl⟩
  · rfl
  · exact hdigit n hn

/-- A shell that compares strings in upper case and reads addresses with hyphens. -/
def plainShell : Shell where
  eq t t' := decide (t.map Char.toUpper = t'.map Char.toUpper)
  parse t := (scanBytes '-' ((t.length + 1) / 3) (t.map Char.toUpper)).map List.Vector.toList
  eq_refl t := decide_eq_true rfl
  eq_symm t t' := decide_eq_decide.mpr eq_comm
  parse_of_eq t bytes h := by
    have htext : t.map Char.toUpper = linkLayerText bytes :=
      (of_decide_eq_true h).trans (map_toUpper_linkLayerText bytes)
    have hlength : (t.length + 1) / 3 = bytes.length := by
      have ht : t.length = (linkLayerText bytes).length := by
        rw [← htext, List.length_map]
      rw [ht, linkLayerText, length_bytesText]
      omega
    have hscan := scanBytes_bytesText digitValue_upperDigit digitValue_hyphen stops_nil
      (⟨bytes, rfl⟩ : List.Vector UInt8 bytes.length)
    rw [List.append_nil] at hscan
    rw [htext, hlength, linkLayerText]
    exact congrArg (Option.map List.Vector.toList) hscan

/-- An interface with index 4 and LUID 6, its neighbour entries and what is pinned. -/
def adapter (forward6 : List ForwardRow) (net6 : List NetRow) (net4 : List NetEntry) : World where
  aliasToLuid _ := some 6
  indexToLuid i := if i = 4 then some 6 else none
  luidToIndex l := if l = 6 then some 4 else none
  ifEntry _ := some [2, 0, 0, 0, 0, 1]
  forward6 := forward6
  forward4 := []
  net6 := net6
  net4 := net4
  registry _ := none

/-- A default route via `fe80::1`. -/
def viaRouter : ForwardRow := ⟨6, .ipv6 0, 0, .ipv6 0xfe800000000000000000000000000001#128, 256⟩

/-- The neighbour entry of `fe80::1`. -/
def routerEntry (bytes : List UInt8) : NetRow :=
  ⟨6, .ipv6 0xfe800000000000000000000000000001#128, bytes, .reachable⟩

/-- The permanent entry that an instance pinned before it was killed. -/
def leftBehind : NetEntry :=
  ⟨⟨6, .ipv4 SENTINEL_HOST, routerMac.toList, .permanent⟩, true⟩

/-- Both know the adapter. -/
theorem managed_adapter (forward6 : List ForwardRow) (net6 : List NetRow)
    (net4 : List NetEntry) : Managed ethernet (adapter forward6 net6 net4) 6 4 where
  byService := rfl
  byScript := by
    simp only [getManagedIfIndex]
    rw [if_neg (by decide)]
    rfl
  index := rfl
  index_ne := by decide
  inverse l i := by
    simp only [adapter]
    by_cases hl : l = 6 <;> by_cases hi : i = 4 <;> simp [hl, hi, eq_comm]

/-- With a resolved router both pin it and store it. -/
theorem sameOutcome_resolved :
    SameOutcome plainIpHelper plainShell ethernet
      (adapter [viaRouter] [routerEntry routerMac.toList] []) 6 := by
  have hm := managed_adapter [viaRouter] [routerEntry routerMac.toList] []
  have ho : Ordinary (adapter [viaRouter] [routerEntry routerMac.toList] []) 6 := by
    refine ⟨?_, ?_, ?_, ?_⟩
    · rintro own hown
      obtain rfl := Option.some.inj hown
      exact Or.inr rfl
    · rintro r hr
      obtain rfl := List.mem_singleton.mp hr
      exact Or.inr ⟨rfl, by decide⟩
    · rintro own value - hvalue
      cases hvalue
    · rintro ⟨x, hx, -⟩
      cases hx
  exact (sameOutcome_iff hm (by decide) (by decide)).mpr (hm.alike_of_ordinary ho)

/-- **Two ways to part**: a killed instance has left its entry and there is no router, which
the script removes and the service leaves; and the neighbour entry of the router is all
zero, which the service pins and the script skips. -/
theorem service_and_script_part :
    (Managed ethernet (adapter [] [] [leftBehind]) 6 4 ∧
      AtMostOne (isSentinelEntry 6) [leftBehind] ∧
      (invokeReconcile plainIpHelper plainShell ethernet (adapter [] [] [leftBehind])).1 =
        .ok () ∧
      ¬ SameOutcome plainIpHelper plainShell ethernet (adapter [] [] [leftBehind]) 6) ∧
    Managed ethernet (adapter [viaRouter] [routerEntry zeroMac.toList] []) 6 4 ∧
      (invokeReconcile plainIpHelper plainShell ethernet
        (adapter [viaRouter] [routerEntry zeroMac.toList] [])).1 = .ok () ∧
      ¬ SameOutcome plainIpHelper plainShell ethernet
        (adapter [viaRouter] [routerEntry zeroMac.toList] []) 6 := by
  refine ⟨⟨managed_adapter _ _ _, by decide, by decide, fun h => ?_⟩, managed_adapter _ _ _,
    by decide, fun h => ?_⟩
  · exact absurd ((h.1 routerMac.toList).mp (by decide)) (by decide)
  · exact absurd ((h.1 zeroMac.toList).mp (by decide)) (by decide)

end V4WithV6Nh.PowershellDaemon
