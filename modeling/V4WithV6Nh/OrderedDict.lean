import V4WithV6Nh.FirstMatch

/-!
# Insertion-Ordered Dictionaries

`OrderedDict κ α` is the dictionary of a scripting language: a list of key/value entries
with distinct keys, in insertion order. Assigning to a present key keeps its position,
assigning to a new key appends, and deleting removes the entry. Distinctness of the keys
is a field of the structure, so every dictionary a program can build has it.

The lemmas give the three laws a client needs, `get` after `set` and `get` after `pop`
at the same key and at another key, and the correspondence between `get` and membership
in `entries`, which is what iteration sees.
-/

namespace V4WithV6Nh

variable {κ α : Type*} [DecidableEq κ]

/-- A dictionary with insertion order. -/
@[ext]
structure OrderedDict (κ α : Type*) where
  /-- The entries, in insertion order. -/
  entries : List (κ × α)
  /-- No key occurs twice. -/
  nodup : (entries.map Prod.fst).Nodup

namespace OrderedDict

variable {d : OrderedDict κ α} {k k' : κ} {v : α}

/-- The empty dictionary. -/
def empty : OrderedDict κ α := ⟨[], List.nodup_nil⟩

/-- The keys, in insertion order. -/
def keys (d : OrderedDict κ α) : List κ := d.entries.map Prod.fst

/-- The value of a key, if it has one. -/
def get (d : OrderedDict κ α) (k : κ) : Option α :=
  (d.entries.find? fun e => decide (e.1 = k)).map Prod.snd

/-- Updating a duplicate-free list at a value keeps it duplicate-free. -/
theorem nodup_upsertFirst {l : List κ} (h : l.Nodup) :
    (upsertFirst (fun x => decide (x = k)) k l).Nodup := by
  induction l with
  | nil => exact List.pairwise_singleton _ _
  | cons y ys ih =>
      obtain ⟨hy, hys⟩ := List.nodup_cons.mp h
      by_cases heq : y = k
      · subst heq
        simpa [upsertFirst] using And.intro hy hys
      · have hmem : y ∉ upsertFirst (fun x => decide (x = k)) k ys := fun hmem =>
          (eq_or_mem_of_mem_upsertFirst hmem).elim heq hy
        simpa [upsertFirst, heq] using ⟨hmem, ih hys⟩

/-- `d[k] = v`: in place if `k` is present, else at the end. -/
def set (d : OrderedDict κ α) (k : κ) (v : α) : OrderedDict κ α where
  entries := upsertFirst (fun e => decide (e.1 = k)) (k, v) d.entries
  nodup := by
    rw [map_upsertFirst Prod.fst (fun x => decide (x = k))]
    exact nodup_upsertFirst d.nodup

/-- `d.pop(k, None)`: the entry of `k` is removed. -/
def pop (d : OrderedDict κ α) (k : κ) : OrderedDict κ α where
  entries := d.entries.eraseP fun e => decide (e.1 = k)
  nodup := d.nodup.sublist (List.eraseP_sublist.map Prod.fst)

/-- In a list of entries with distinct keys, the first entry of a key is its only
one. -/
theorem find?_entry_iff {l : List (κ × α)} (h : (l.map Prod.fst).Nodup) {e : κ × α} :
    l.find? (fun e' => decide (e'.1 = k)) = some e ↔ e ∈ l ∧ e.1 = k := by
  constructor
  · intro hf
    exact ⟨List.mem_of_find?_eq_some hf, by simpa using List.find?_some hf⟩
  · rintro ⟨hmem, rfl⟩
    induction l with
    | nil => cases hmem
    | cons y ys ih =>
        obtain ⟨hy, hys⟩ := List.nodup_cons.mp h
        rcases List.mem_cons.mp hmem with rfl | hmem
        · simp
        · have hne : y.1 ≠ e.1 := fun heq => hy (heq ▸ List.mem_map_of_mem hmem)
          simpa [List.find?_cons, hne] using ih hys hmem

/-- `get` reads exactly the entries. -/
theorem get_eq_some_iff : d.get k = some v ↔ (k, v) ∈ d.entries := by
  rw [get, Option.map_eq_some_iff]
  constructor
  · rintro ⟨e, he, rfl⟩
    obtain ⟨hmem, rfl⟩ := (find?_entry_iff d.nodup).mp he
    exact hmem
  · intro hmem
    exact ⟨(k, v), (find?_entry_iff d.nodup).mpr ⟨hmem, rfl⟩, rfl⟩

/-- A key has no value exactly when it is not among the keys. -/
theorem get_eq_none_iff : d.get k = none ↔ k ∉ d.keys := by
  rw [get, Option.map_eq_none_iff, List.find?_eq_none, keys, List.mem_map]
  constructor
  · rintro h ⟨e, he, rfl⟩
    exact h e he (decide_eq_true rfl)
  · intro h e he hk
    exact h ⟨e, he, of_decide_eq_true hk⟩

/-- A key is among the keys exactly when it has a value. -/
theorem mem_keys_iff : k ∈ d.keys ↔ ∃ v, d.get k = some v := by
  rw [← Option.ne_none_iff_exists', Ne, get_eq_none_iff, not_not]

/-- The value just assigned. -/
@[simp] theorem get_set_self (d : OrderedDict κ α) (k : κ) (v : α) :
    (d.set k v).get k = some v :=
  get_eq_some_iff.mpr (mem_upsertFirst_self _ _ _)

/-- Assigning to one key leaves the others. -/
theorem get_set_of_ne (d : OrderedDict κ α) (v : α) (h : k' ≠ k) :
    (d.set k v).get k' = d.get k' := by
  ext w
  rw [get_eq_some_iff, get_eq_some_iff]
  exact mem_upsertFirst_iff (decide_eq_false h) fun heq => h (congrArg Prod.fst heq)

/-- A key that was just assigned has no other value. -/
theorem eq_of_get_set_self {v w : α} (h : (d.set k v).get k = some w) : v = w :=
  Option.some.inj ((get_set_self _ _ _).symm.trans h)

/-- After an assignment a key has the value assigned, or the value it had. -/
theorem get_set_cases {v w : α} (h : (d.set k v).get k' = some w) :
    (k' = k ∧ w = v) ∨ (k' ≠ k ∧ d.get k' = some w) := by
  by_cases hk : k' = k
  · subst hk
    exact Or.inl ⟨rfl, (eq_of_get_set_self h).symm⟩
  · rw [get_set_of_ne _ _ hk] at h
    exact Or.inr ⟨hk, h⟩

/-- Assigning to a new key appends an entry. -/
theorem entries_set_of_get_eq_none (v : α) (h : d.get k = none) :
    (d.set k v).entries = d.entries ++ [(k, v)] := by
  refine upsertFirst_of_forall_not fun e he => decide_eq_false ?_
  rintro rfl
  exact get_eq_none_iff.mp h (List.mem_map_of_mem he)

/-- Assigning rows with distinct new keys one after the other appends their entries. -/
theorem entries_foldl_set {β : Type*} (f : β → Option (κ × α)) (l : List β)
    (h : ((d.entries ++ l.filterMap f).map Prod.fst).Nodup) :
    (l.foldl (fun out x => (f x).elim out fun e => out.set e.1 e.2) d).entries =
      d.entries ++ l.filterMap f := by
  induction l generalizing d with
  | nil => exact (List.append_nil _).symm
  | cons x l ih =>
      rw [List.foldl_cons]
      cases hx : f x with
      | none =>
          rw [List.filterMap_cons_none hx] at h ⊢
          exact ih h
      | some e =>
          rw [List.filterMap_cons_some hx] at h ⊢
          have hnew : d.get e.1 = none := by
            rw [List.map_append, List.nodup_append] at h
            exact get_eq_none_iff.mpr fun hk => h.2.2 _ hk e.1 List.mem_cons_self rfl
          have hset := entries_set_of_get_eq_none e.2 hnew
          have hentries : d.entries ++ e :: l.filterMap f =
              (d.set e.1 e.2).entries ++ l.filterMap f := by
            rw [hset, List.append_assoc]
            rfl
          rw [hentries] at h ⊢
          exact ih h

/-- Assigning to a present key keeps every view of the entries in which the new value
looks like the old one. -/
theorem map_entries_set {β : Type*} {f : κ × α → β} {v₀ : α} (h : d.get k = some v₀)
    (hf : f (k, v) = f (k, v₀)) : (d.set k v).entries.map f = d.entries.map f := by
  obtain ⟨e, he, rfl⟩ := Option.map_eq_some_iff.mp h
  have hk : e.1 = k := by simpa using List.find?_some he
  refine map_upsertFirst_of_find? he (hf.trans ?_)
  rw [← hk]

/-- Deleting a key from a list of entries with distinct keys leaves none with it. -/
theorem ne_key_of_mem_eraseP {l : List (κ × α)} (h : (l.map Prod.fst).Nodup) {e : κ × α}
    (he : e ∈ l.eraseP fun e' => decide (e'.1 = k)) : e.1 ≠ k := by
  induction l with
  | nil => cases he
  | cons y ys ih =>
      obtain ⟨hy, hys⟩ := List.nodup_cons.mp h
      by_cases hyk : y.1 = k
      · rw [List.eraseP_cons_of_pos (by simpa using hyk)] at he
        exact fun hek => hy (hyk.trans hek.symm ▸ List.mem_map_of_mem he)
      · rw [List.eraseP_cons_of_neg (by simpa using hyk)] at he
        rcases List.mem_cons.mp he with rfl | he
        · exact hyk
        · exact ih hys he

/-- The popped key is gone. -/
@[simp] theorem get_pop_self (d : OrderedDict κ α) (k : κ) : (d.pop k).get k = none := by
  rw [get_eq_none_iff, keys, List.mem_map]
  rintro ⟨e, he, rfl⟩
  exact ne_key_of_mem_eraseP d.nodup he rfl

/-- Popping one key leaves the others. -/
theorem get_pop_of_ne (d : OrderedDict κ α) (h : k' ≠ k) : (d.pop k).get k' = d.get k' := by
  ext w
  rw [get_eq_some_iff, get_eq_some_iff]
  exact List.mem_eraseP_of_neg (by simpa using h)

end OrderedDict

end V4WithV6Nh
