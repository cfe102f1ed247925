import V4WithV6Nh.RouterCache

/-!
# A Router MAC Whose Write Is Cut Short

`router_cache_put` writes the new MAC to a temporary file and renames it, to be "idempotent,
atomic". It does not ask whether the write was complete, so on a full disk the file that it
renames holds the beginning of the line. Most beginnings are no MAC for `sscanf`, and a
lookup finds nothing. One is: after 16 bytes only the last digit is missing, and `%hhx` is
content with the one before it.

## Main results

* `routerCacheLookup_put_eq`: what a lookup finds after a put, for every cut.
* `atomic_iff`: a put is atomic exactly when it does not rename a file that was cut after 16
  bytes, the last octet being 00 or the earlier MAC happening to be what is read apart.
-/

namespace V4WithV6Nh.MacosDaemon

/-- A MAC without the last digit of its text. -/
def shortened (mac : Mac) : Mac := mac.set 5 (mac.get 5 / 16)

/-- What a lookup makes of a file with the first bytes of a line, or with all of it. -/
def readBack (router : Mac) (written : Option ℕ) : Option Mac :=
  match written with
  | none => some router
  | some n => if n < 16 then none else if n = 16 then some (shortened router) else some router

section Put

variable {calls : Calls} {files : Text → Option Text} {host router : Mac}

/-- A line that has lost its newline is read as far as it goes. -/
theorem fgets_take {n : ℕ} (hpos : 0 < n) (hn : n ≤ 17) :
    fgets 32 ((macStr router ++ ['\n']).take n) = some ((macStr router).take n) := by
  have hlength := length_macStr router
  rw [List.take_append_of_le_length (by omega)]
  have hnewline : '\n' ∉ (macStr router).take n := fun h =>
    newline_notMem_macStr router (List.mem_of_mem_take h)
  have htake : ((macStr router).take n).length = n := by
    rw [List.length_take]
    omega
  have hne : (macStr router).take n ≠ [] := by
    intro h
    rw [h] at htake
    exact hpos.ne htake
  have hfirst := firstLine_append hnewline []
  rw [List.append_nil, firstLine, List.append_nil] at hfirst
  rw [fgets_of_length_lt hne (by omega), hfirst]

/-- **Reading a cut line back.** -/
theorem lookup_of_take {n : ℕ}
    (hfile : files (routerCachePath host) = some ((macStr router ++ ['\n']).take n)) :
    routerCacheLookup .succeed files host = readBack router (some n) := by
  have hlength := length_macStr router
  have hopen : fopen .succeed files (routerCachePath host) =
      some ((macStr router ++ ['\n']).take n) := hfile
  rw [readBack]
  by_cases hfull : 17 < n
  · have hline : (macStr router ++ ['\n']).take n = macStr router ++ ['\n'] :=
      List.take_of_length_le (by
        rw [List.length_append, List.length_singleton]
        omega)
    rw [if_neg (by omega), if_neg (by omega)]
    exact routerCacheLookup_of_line (hfile.trans (congrArg some hline))
  by_cases hempty : n = 0
  · rw [routerCacheLookup, hopen, hempty]
    rfl
  rw [routerCacheLookup, hopen, Option.bind_some, fgets_take (by omega) (by omega)]
  by_cases hshort : n < 16
  · rw [if_pos hshort]
    exact scanBytes_take_eq_none digitValue_lowerDigit digitValue_colon router (by omega)
  rw [if_neg hshort]
  by_cases hlast : n = 16
  · rw [if_pos hlast, hlast]
    exact scanBytes_take_last digitValue_lowerDigit digitValue_colon router
  · rw [if_neg hlast, List.take_of_length_le (by omega)]
    have hscan := @scanBytes_macStr router [] stops_nil
    rwa [List.append_nil] at hscan

/-- **What a lookup finds after a put**, however far the write came. -/
theorem routerCacheLookup_put_eq :
    routerCacheLookup .succeed (routerCachePut calls files host router) host =
      if Replaces calls files host router then readBack router calls.written
      else routerCacheLookup .succeed files host := by
  have hfile := routerCachePut_path calls files host router host
  by_cases hreplaces : Replaces calls files host router
  · rw [if_pos ⟨rfl, hreplaces⟩, Calls.content] at hfile
    rw [if_pos hreplaces]
    cases hwritten : calls.written with
    | none =>
        rw [hwritten] at hfile
        exact routerCacheLookup_of_line hfile
    | some n =>
        rw [hwritten] at hfile
        exact lookup_of_take hfile
  · rw [if_neg fun h => hreplaces h.2] at hfile
    rw [if_neg hreplaces]
    exact routerCacheLookup_congr hfile

/-- The last digit is missed unless the last octet is 00. -/
theorem shortened_eq_iff : shortened router = router ↔ router.get 5 = 0 := by
  have hset : shortened router = router ↔ router.get 5 / 16 = router.get 5 := by
    constructor
    · intro h
      have hget := congrArg (List.Vector.get · 5) h
      simpa [shortened] using hget
    · intro h
      rw [shortened, h]
      exact Subtype.ext (List.set_getElem_self _)
  rw [hset, ← UInt8.toNat_inj, ← UInt8.toNat_inj, UInt8.toNat_div]
  have hlt := (router.get 5).toNat_lt
  constructor
  · intro h
    have : (router.get 5).toNat / 16 = (router.get 5).toNat := h
    have hzero : (router.get 5).toNat = 0 := by omega
    exact hzero
  · intro h
    rw [h]
    rfl

/-- Every later lookup finds no MAC, the earlier one or the new one. -/
def Atomic (calls : Calls) (files : Text → Option Text) (host router : Mac) : Prop :=
  ∀ later : Calls, ∀ mac,
    routerCacheLookup later (routerCachePut calls files host router) host = some mac →
      routerCacheLookup .succeed files host = some mac ∨ mac = router

/-- The put renames a file whose line lacks its last digit and the newline, and with that
spells another MAC than the new one and the earlier one. -/
def Torn (calls : Calls) (files : Text → Option Text) (host router : Mac) : Prop :=
  Replaces calls files host router ∧ calls.written = some 16 ∧ router.get 5 ≠ 0 ∧
    routerCacheLookup .succeed files host ≠ some (shortened router)

/-- **Exactly when a put is atomic**: for every own MAC, every content of the files, every
new MAC and every length of what is written. -/
theorem atomic_iff (calls : Calls) (files : Text → Option Text) (host router : Mac) :
    Atomic calls files host router ↔ ¬ Torn calls files host router := by
  have hlater : Atomic calls files host router ↔ ∀ mac,
      routerCacheLookup .succeed (routerCachePut calls files host router) host = some mac →
        routerCacheLookup .succeed files host = some mac ∨ mac = router :=
    ⟨fun h => h .succeed, fun h later mac hmac => h mac (routerCacheLookup_of_eq_some hmac)⟩
  rw [hlater, routerCacheLookup_put_eq, Torn]
  by_cases hreplaces : Replaces calls files host router
  · rw [if_pos hreplaces]
    simp only [hreplaces, true_and, not_and, not_not]
    cases hwritten : calls.written with
    | none => simp [readBack, eq_comm]
    | some n =>
        by_cases hcut : n = 16
        · subst hcut
          have hread : readBack router (some 16) = some (shortened router) := rfl
          simp only [hread, Option.some.injEq, forall_eq', true_implies]
          rw [shortened_eq_iff, or_comm, or_iff_not_imp_left]
        · refine iff_of_true (fun mac hmac => Or.inr ?_) fun h => ?_
          · simp only [readBack, hcut, if_false] at hmac
            split at hmac
            · cases hmac
            · exact (Option.some.inj hmac).symm
          · exact absurd (Option.some.inj h) hcut
  · rw [if_neg hreplaces]
    exact iff_of_true (fun mac hmac => Or.inl hmac) fun h => hreplaces h.1

end Put

/-! ### The 16 bytes -/

/-- An own MAC. -/
def keyMac : Mac := ⟨[0x02, 0, 0, 0, 0, 0x2a], rfl⟩

/-- A router's MAC, and what is left of it without the last digit. -/
def newMac : Mac := ⟨[0xaa, 0xbb, 0xcc, 0xdd, 0xee, 0xff], rfl⟩

def tornMac : Mac := ⟨[0xaa, 0xbb, 0xcc, 0xdd, 0xee, 0x0f], rfl⟩

/-- The write is cut short. -/
def Calls.cut (n : ℕ) : Calls := { Calls.succeed with written := some n }

/-- **A put is not atomic**: where nothing was stored, a write that is cut after 16 bytes
stores a MAC that no one has resolved. -/
theorem torn_write :
    routerCacheLookup .succeed (fun _ => none) keyMac = none ∧
    routerCacheLookup .succeed (routerCachePut (.cut 16) (fun _ => none) keyMac newMac) keyMac =
      some tornMac ∧ ¬ Atomic (.cut 16) (fun _ => none) keyMac newMac := by
  have hnone : ∀ calls, routerCacheLookup calls (fun _ => none) keyMac = none := by
    intro calls
    rw [routerCacheLookup, fopen, ite_self]
    rfl
  have htorn : routerCacheLookup .succeed
      (routerCachePut (.cut 16) (fun _ => none) keyMac newMac) keyMac = some tornMac := by
    have hnew : routerCacheLookup .succeed (fun _ => none) keyMac ≠ some newMac := by
      rw [hnone]
      exact (Option.some_ne_none _).symm
    rw [routerCacheLookup_put_eq, if_pos ⟨hnew, rfl, rfl⟩]
    rfl
  refine ⟨hnone _, htorn, fun hatomic => ?_⟩
  rcases hatomic .succeed tornMac htorn with h | h
  · rw [hnone] at h
    cases h
  · exact absurd h (by decide)

end V4WithV6Nh.MacosDaemon
