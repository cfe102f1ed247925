import V4WithV6Nh.MacosDaemon
import V4WithV6Nh.WindowsDaemon

/-!
# The Stored Router MACs

Both daemons store the MAC of a resolved router under the own MAC of the interface: one in
a file with a text line, the other in a registry value. What they share is the
specification of a map: a lookup after a put that did not fail finds what was put, and any
other key as before. So no key is taken for another, and what is printed is read back.

## Main results

* `MacosDaemon.routerCacheLookup_put_of_writesComplete`,
  `WindowsDaemon.routerCacheLookup_put`.
-/

namespace V4WithV6Nh

/-! ### macOS -/

namespace MacosDaemon

variable {files : Text → Option Text} {host host' router : Mac}

/-- A colon is no digit. -/
theorem digitValue_colon : digitValue 16 ':' = none := by decide

/-- A line with a MAC address is read back. -/
theorem scanBytes_macStr {rest : Text} (hrest : Stops rest) :
    scanBytes ':' 6 (macStr router ++ rest) = some router :=
  scanBytes_bytesText digitValue_lowerDigit digitValue_colon hrest router

/-- A MAC address has no newline. -/
theorem newline_notMem_macStr (mac : Mac) : '\n' ∉ macStr mac := by
  intro h
  rcases mem_bytesText h with hsep | ⟨n, hn, hdigit⟩
  · revert hsep
    decide
  · have hvalue := digitValue_lowerDigit n hn
    rw [← hdigit] at hvalue
    revert hvalue
    simp [digitValue]

/-- A MAC address has 17 characters. -/
theorem length_macStr (mac : Mac) : (macStr mac).length = 17 := by
  rw [macStr, length_bytesText, mac.toList_length]

/-- A line with a MAC address fits the buffer of a lookup. -/
theorem fgets_macStr : fgets 32 (macStr router ++ ['\n']) = some (macStr router ++ ['\n']) := by
  refine fgets_line (newline_notMem_macStr router) ?_
  rw [length_macStr]
  decide

/-- The paths of two own MACs are different. -/
theorem routerCachePath_inj : routerCachePath host' = routerCachePath host ↔ host' = host := by
  constructor
  · intro h
    have htext : macStr host' ++ [] = macStr host ++ [] := by
      rw [List.append_nil, List.append_nil]
      exact (List.cons.inj (List.append_cancel_left h)).2
    exact eq_of_bytesText_append digitValue_lowerDigit digitValue_colon stops_nil stops_nil
      htext
  · rintro rfl
    rfl

/-- A temporary file is not the file of an own MAC. -/
theorem routerCachePath_ne_tmp : routerCachePath host' ≠ routerCacheTmp host := by
  intro h
  rw [routerCacheTmp, routerCachePath, routerCachePath, List.append_assoc] at h
  have htext : macStr host' ++ [] = macStr host ++ ".tmp".toList := by
    rw [List.append_nil]
    exact (List.cons.inj (List.append_cancel_left h)).2
  have hdot : Stops ".tmp".toList := stops_cons (by decide)
  obtain rfl := eq_of_bytesText_append digitValue_lowerDigit digitValue_colon stops_nil hdot
    htext
  have := congrArg List.length htext
  simp at this

/-- The write of a mapping completes. -/
def Calls.WritesComplete (calls : Calls) (host : Mac) : Prop :=
  calls.fopen (routerCacheTmp host) = false ∧ calls.written = none ∧ calls.rename = false

/-- What a lookup finds is stored. -/
theorem routerCacheLookup_of_eq_some {calls : Calls}
    (h : routerCacheLookup calls files host = some router) :
    routerCacheLookup .succeed files host = some router := by
  rw [routerCacheLookup, fopen] at h
  split at h
  · cases h
  · rename_i line hline
    by_cases hopen : calls.fopen (routerCachePath host) = true
    · rw [if_pos hopen] at hline
      cases hline
    · rw [if_neg hopen] at hline
      have hline' : (fopen .succeed files (routerCachePath host)).bind (fgets 32) = some line :=
        hline
      rw [routerCacheLookup, hline']
      exact h

/-- The put writes a temporary file and renames it. -/
def Replaces (calls : Calls) (files : Text → Option Text) (host router : Mac) : Prop :=
  routerCacheLookup calls files host ≠ some router ∧
    calls.fopen (routerCacheTmp host) = false ∧ calls.rename = false

instance (calls : Calls) (files : Text → Option Text) (host router : Mac) :
    Decidable (Replaces calls files host router) :=
  inferInstanceAs (Decidable (_ ∧ _ ∧ _))

/-- What the write leaves of the line. -/
def Calls.content (calls : Calls) (router : Mac) : Text :=
  (calls.written.map (macStr router ++ ['\n']).take).getD (macStr router ++ ['\n'])

/-- **The files after a put**: the one of the own MAC is replaced, or none is. -/
theorem routerCachePut_path (calls : Calls) (files : Text → Option Text)
    (host router host' : Mac) :
    routerCachePut calls files host router (routerCachePath host') =
      if host' = host ∧ Replaces calls files host router then some (calls.content router)
      else files (routerCachePath host') := by
  rw [routerCachePut]
  by_cases hsame : routerCacheLookup calls files host = some router
  · rw [if_pos hsame, if_neg fun h => h.2.1 hsame]
  rw [if_neg hsame]
  by_cases hopen : calls.fopen (routerCacheTmp host) = true
  · rw [if_pos hopen, if_neg fun h => Bool.false_ne_true (h.2.2.1.symm.trans hopen)]
  rw [if_neg hopen]
  by_cases hrename : calls.rename = true
  · simp only [hrename, if_true]
    rw [Function.update_of_ne routerCachePath_ne_tmp,
      if_neg fun h => Bool.false_ne_true (h.2.2.2.symm.trans hrename)]
  have hreplaces : Replaces calls files host router :=
    ⟨hsame, (Bool.not_eq_true _).mp hopen, (Bool.not_eq_true _).mp hrename⟩
  simp only [hrename, Bool.false_eq_true, if_false]
  rw [Function.update_of_ne routerCachePath_ne_tmp]
  by_cases heq : host' = host
  · rw [if_pos ⟨heq, hreplaces⟩, heq, Function.update_self, Calls.content]
  · rw [if_neg fun h => heq h.1, Function.update_of_ne (mt routerCachePath_inj.mp heq),
      Function.update_of_ne routerCachePath_ne_tmp]

/-- A lookup reads its own file and no other. -/
theorem routerCacheLookup_congr {calls : Calls} {files files' : Text → Option Text}
    (h : files (routerCachePath host) = files' (routerCachePath host)) :
    routerCacheLookup calls files host = routerCacheLookup calls files' host := by
  rw [routerCacheLookup, routerCacheLookup, fopen, fopen, h]

/-- A lookup finds a MAC whose line is complete. -/
theorem routerCacheLookup_of_line
    (h : files (routerCachePath host) = some (macStr router ++ ['\n'])) :
    routerCacheLookup .succeed files host = some router := by
  have hopen : fopen .succeed files (routerCachePath host) = some (macStr router ++ ['\n']) := h
  rw [routerCacheLookup, hopen, Option.bind_some, fgets_macStr]
  exact scanBytes_macStr (stops_cons (by decide))

/-- **The map in the cache directory**: a put whose write completes stores its mapping and
leaves every other one. -/
theorem routerCacheLookup_put_of_writesComplete {calls : Calls} (h : calls.WritesComplete host) :
    routerCacheLookup .succeed (routerCachePut calls files host router) host' =
      if host' = host then some router else routerCacheLookup .succeed files host' := by
  obtain ⟨hopenTmp, hwritten, hrename⟩ := h
  by_cases heq : host' = host
  · subst heq
    rw [if_pos rfl]
    by_cases hsame : routerCacheLookup calls files host' = some router
    · rw [routerCachePut, if_pos hsame]
      exact routerCacheLookup_of_eq_some hsame
    · have hfile := routerCachePut_path calls files host' router host'
      rw [if_pos ⟨rfl, hsame, hopenTmp, hrename⟩, Calls.content, hwritten] at hfile
      exact routerCacheLookup_of_line hfile
  · rw [if_neg heq]
    exact routerCacheLookup_congr
      ((routerCachePut_path calls files host router host').trans (if_neg fun h => heq h.1))

/-- A put that does not fail stores its mapping and leaves every other one. -/
theorem routerCacheLookup_put :
    routerCacheLookup .succeed (routerCachePut .succeed files host router) host' =
      if host' = host then some router else routerCacheLookup .succeed files host' :=
  routerCacheLookup_put_of_writesComplete ⟨rfl, rfl, rfl⟩

end MacosDaemon

/-! ### Windows -/

namespace WindowsDaemon

variable {registry : Text → Option Text} {host host' router : Mac}

/-- A hyphen is no digit. -/
theorem digitValue_hyphen : digitValue 16 '-' = none := by decide

/-- The value names of two own MACs are different. -/
theorem macStrReg_inj : macStrReg host' = macStrReg host ↔ host' = host := by
  constructor
  · intro h
    have htext : macStrReg host' ++ [] = macStrReg host ++ [] := by rw [h]
    exact eq_of_bytesText_append digitValue_upperDigit digitValue_hyphen stops_nil stops_nil
      htext
  · rintro rfl
    rfl

/-- A value with a MAC address is read back. -/
theorem routerCacheLookup_of_registry (h : registry (macStrReg host) = some (macStrReg router)) :
    routerCacheLookup .succeed registry host = some router := by
  have hscan : scanBytes '-' 6 (macStrReg router ++ []) = some router :=
    scanBytes_bytesText digitValue_upperDigit digitValue_hyphen stops_nil router
  have hlength : (macStrReg router).length = 17 := by
    rw [macStrReg, length_bytesText, router.toList_length]
  rw [List.append_nil] at hscan
  simp [routerCacheLookup, Calls.succeed, h, hlength, hscan]

/-- **The map in the registry**: a put that does not fail stores its mapping and leaves
every other one. -/
theorem routerCacheLookup_put :
    routerCacheLookup .succeed (routerCachePut .succeed registry host router) host' =
      if host' = host then some router else routerCacheLookup .succeed registry host' := by
  by_cases hsame : routerCacheLookup .succeed registry host = some router
  · rw [routerCachePut, if_pos hsame]
    split
    · rename_i heq
      rw [heq, hsame]
    · rfl
  · have hput : routerCachePut .succeed registry host router =
        Function.update registry (macStrReg host) (some (macStrReg router)) := by
      rw [routerCachePut, if_neg hsame]
      rfl
    rw [hput]
    by_cases heq : host' = host
    · rw [if_pos heq, heq]
      exact routerCacheLookup_of_registry (Function.update_self ..)
    · rw [if_neg heq, routerCacheLookup, routerCacheLookup,
        Function.update_of_ne (mt macStrReg_inj.mp heq)]

end WindowsDaemon

end V4WithV6Nh
