/-!
# Maps in order of insertion

An `OrderedMap` holds one value for each of its keys and remembers in which order the
keys came.  Inserting a key that is there already replaces its value in place; a new key
goes to the end.
-/

namespace XmlDiagnostics

/-- A finite map whose keys stand in the order of their first insertion. -/
@[ext]
structure OrderedMap (κ ν : Type) where
  /-- The keys with their values, the oldest key first. -/
  entries : List (κ × ν)

namespace OrderedMap

variable {κ ν : Type} [DecidableEq κ]

/-- The map without keys. -/
def empty : OrderedMap κ ν := ⟨[]⟩

/-- The entries with `value` in place of the value of `key`, or with a new last entry. -/
def insertEntry (key : κ) (value : ν) : List (κ × ν) → List (κ × ν)
  | [] => [(key, value)]
  | entry :: rest =>
    if entry.1 = key then (key, value) :: rest else entry :: insertEntry key value rest

/-- The map in which `key` has the value `value`. -/
def insert (m : OrderedMap κ ν) (key : κ) (value : ν) : OrderedMap κ ν :=
  ⟨insertEntry key value m.entries⟩

/-- The value of a key. -/
def find? (m : OrderedMap κ ν) (key : κ) : Option ν :=
  (m.entries.find? (·.1 = key)).map (·.2)

/-- Whether a key has a value. -/
def contains (m : OrderedMap κ ν) (key : κ) : Bool :=
  (m.find? key).isSome

/-- The keys, the oldest first. -/
def keys (m : OrderedMap κ ν) : List κ :=
  m.entries.map (·.1)

/-- The map of a list of entries, of which a later one replaces an earlier one. -/
def ofList (entries : List (κ × ν)) : OrderedMap κ ν :=
  entries.foldl (fun m entry ↦ m.insert entry.1 entry.2) empty

omit [DecidableEq κ] in
/-- If no key stands twice in a list of entries, their order does not matter to the values. -/
theorem lookup_eq_of_perm [BEq κ] [LawfulBEq κ] {entries entries' : List (κ × ν)}
    (h : entries.Perm entries') (hnodup : (entries.map (·.1)).Nodup) (key : κ) :
    entries.lookup key = entries'.lookup key := by
  induction h with
  | nil => rfl
  | cons entry _ ih =>
    rw [List.lookup_cons, List.lookup_cons, ih (List.nodup_cons.mp hnodup).2]
  | swap entry entry' rest =>
    have hne : entry'.1 ≠ entry.1 := fun heq ↦
      (List.nodup_cons.mp hnodup).1 (List.mem_cons.mpr (Or.inl heq))
    rw [List.lookup_cons, List.lookup_cons, List.lookup_cons, List.lookup_cons]
    cases hkey : key == entry.1 with
    | false => rfl
    | true =>
      cases hkey' : key == entry'.1 with
      | false => rfl
      | true => exact absurd ((eq_of_beq hkey').symm.trans (eq_of_beq hkey)) hne
  | trans hfirst _ ih ih' =>
    rw [ih hnodup, ih' ((hfirst.map _).nodup_iff.mp hnodup)]

theorem find?_eq_none_iff {m : OrderedMap κ ν} {key : κ} : m.find? key = none ↔ key ∉ m.keys := by
  simp only [find?, keys, Option.map_eq_none_iff, List.find?_eq_none, decide_eq_true_eq,
    List.mem_map, not_exists, not_and]

/-- After an insertion the inserted key has the new value and all others keep theirs. -/
theorem find?_insert (m : OrderedMap κ ν) (key key' : κ) (value : ν) :
    (m.insert key value).find? key' = if key' = key then some value else m.find? key' := by
  obtain ⟨entries⟩ := m
  simp only [find?, insert]
  induction entries with
  | nil =>
    by_cases h : key' = key
    · simp [insertEntry, h]
    · have h' : ¬ key = key' := fun e ↦ h e.symm
      simp [insertEntry, h, h']
  | cons entry rest ih =>
    obtain ⟨k, v⟩ := entry
    by_cases hk : k = key
    · subst hk
      by_cases h : k = key'
      · simp [insertEntry, h]
      · have h' : ¬ key' = k := fun e ↦ h e.symm
        simp [insertEntry, h, h']
    · by_cases h : k = key'
      · subst h
        simp [insertEntry, hk]
      · simpa [insertEntry, hk, h] using ih

/-- An insertion keeps the keys in their order, and adds only a key that was missing. -/
theorem keys_insert (m : OrderedMap κ ν) (key : κ) (value : ν) :
    (m.insert key value).keys = if key ∈ m.keys then m.keys else m.keys ++ [key] := by
  obtain ⟨entries⟩ := m
  simp only [keys, insert]
  induction entries with
  | nil => simp [insertEntry]
  | cons entry rest ih =>
    obtain ⟨k, v⟩ := entry
    by_cases hk : k = key
    · simp [insertEntry, hk]
    · have hk' : ¬ key = k := fun e ↦ hk e.symm
      simp only [insertEntry, hk, if_false, List.map_cons, ih, List.mem_cons, hk', false_or]
      by_cases h : key ∈ rest.map (·.1) <;> simp [h]

end OrderedMap

end XmlDiagnostics
