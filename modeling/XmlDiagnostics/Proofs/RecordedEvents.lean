import Mathlib.Data.List.Forall2
import Mathlib.Data.Option.Basic
import XmlDiagnostics.OrderedMap
import XmlDiagnostics.Proofs.ReplayInputs

/-!
# Recorded events are read back, all or none

`Event.RecordsAll` says how events are recorded as the tree of a TOML document, and
`Event.SpoilsAll` how a tree is spoiled.  Events that were recorded are read back as they are,
every argument as the kind of argument that it was; of a spoiled tree nothing is read, wherever
the fault is.

A record is a table or an array.  Both are looked at through `Toml.Value.partsBy`, the parts under
their keys, so that what is said of tables also holds of arrays.
-/

namespace XmlDiagnostics

open Toml (Value)

/-! ## Lists that are read as a whole -/

section MapM

variable {α β : Type} {f : α → Option β} {l : List α}

/-- A list is read if each of its elements is. -/
theorem mapM_eq_some_of_forall₂ {l' : List β} (h : List.Forall₂ (fun a b ↦ f a = some b) l l') :
    l.mapM f = some l' := by
  induction h with
  | nil => rfl
  | cons hfirst _ ih =>
    rw [List.mapM_cons, hfirst, ih]
    rfl

/-- One element that is not read spoils the list. -/
theorem mapM_eq_none_of_mem {a : α} (h : a ∈ l) (hnone : f a = none) : l.mapM f = none := by
  induction l with
  | nil => cases h
  | cons first rest ih =>
    rw [List.mapM_cons]
    rcases List.mem_cons.mp h with rfl | hrest
    · rw [hnone]
      rfl
    · rw [ih hrest]
      cases f first with
      | none => rfl
      | some b => rfl

end MapM

/-! ## Values -/

namespace Toml.Value

/-- The parts of a record by their keys: the entries of a table, or the elements of an array, to
which the keys belong in order. -/
def partsBy (keys : List String) : Value → List (String × Value)
  | table entries => entries
  | array elements => keys.zip elements
  | _ => []

theorem entriesAreReadable_iff {entries : List (String × Value)} :
    entriesAreReadable entries = true ↔ ∀ entry ∈ entries, entry.2.isReadable = true := by
  induction entries with
  | nil => simp [entriesAreReadable]
  | cons entry rest ih => simp [entriesAreReadable, ih]

theorem text?_eq_some_iff {v : Value} {text : String} : v.text? = some text ↔ v = .string text := by
  cases v <;> simp [text?]

theorem word?_eq_some_iff {v : Value} {word : Int32} :
    v.word? = some word ↔ v = .integer word.toInt := by
  cases v with
  | integer number =>
    rw [word?, Word.ofInt?_eq_some_iff, integer.injEq]
    exact eq_comm
  | _ => simp [word?]

end Toml.Value

/-! ## Arguments -/

namespace Argument

mutual

/-- The value that an argument is recorded as. -/
def toValue : Argument → Value
  | bool value => .boolean value
  | int value => .integer value
  | float value => .float value
  | str value => .string value
  | list values => .array (toValues values)

/-- The values that several arguments are recorded as. -/
def toValues : List Argument → List Value
  | [] => []
  | a :: rest => a.toValue :: toValues rest

end

theorem toValues_eq_map (arguments : List Argument) :
    toValues arguments = arguments.map toValue := by
  induction arguments with
  | nil => rfl
  | cons a rest ih => rw [toValues, ih, List.map_cons]

theorem ofValues?_eq_mapM (values : List Value) : ofValues? values = values.mapM ofValue? := by
  induction values with
  | nil => rfl
  | cons v rest ih => rw [ofValues?, ih, List.mapM_cons]

/-- An argument whose whole numbers, at any depth, are numbers of 64 bits with a sign. -/
inductive Fits : Argument → Prop
  | bool (value : Bool) : Fits (.bool value)
  | int {value : Int} : Word.fitsSigned 64 value = true → Fits (.int value)
  | float (value : Float) : Fits (.float value)
  | str (value : String) : Fits (.str value)
  | list {values : List Argument} : (∀ a ∈ values, Fits a) → Fits (.list values)

/-- A value that is a date or time or a table, or has one in it at any depth. -/
inductive Foreign : Value → Prop
  | dateTime (text : String) : Foreign (.dateTime text)
  | table (entries : List (String × Value)) : Foreign (.table entries)
  | array {elements : List Value} {v : Value} : v ∈ elements → Foreign v → Foreign (.array elements)

theorem ofValues?_toValues {arguments : List Argument}
    (h : ∀ a ∈ arguments, ofValue? a.toValue = some a) :
    ofValues? (toValues arguments) = some arguments := by
  rw [ofValues?_eq_mapM, toValues_eq_map]
  refine mapM_eq_some_of_forall₂ ?_
  rw [List.forall₂_map_left_iff, List.forall₂_same]
  exact h

/-- An argument is read back as it was, a whole number as a whole number and a list as a list. -/
theorem Fits.ofValue?_toValue {a : Argument} (h : a.Fits) : ofValue? a.toValue = some a := by
  induction h with
  | bool => rfl
  | int hfits => rw [toValue, ofValue?, if_pos hfits]
  | float => rfl
  | str => rfl
  | list _ ih => rw [toValue, ofValue?, ofValues?_toValues ih, Option.map_some]

/-- A value with a date or a table in it is no argument. -/
theorem Foreign.ofValue?_eq_none {v : Value} (h : Foreign v) : ofValue? v = none := by
  induction h with
  | dateTime => rfl
  | table => rfl
  | array hmem _ ih =>
    rw [ofValue?, ofValues?_eq_mapM, mapM_eq_none_of_mem hmem ih, Option.map_none]

/-- A value with a date or a table in it is no array of arguments either. -/
theorem Foreign.bind_ofValues?_eq_none {v : Value} (h : Foreign v) :
    v.elements?.bind ofValues? = none := by
  cases h with
  | dateTime => rfl
  | table => rfl
  | array hmem hv =>
    rw [Value.elements?, Option.bind_some, ofValues?_eq_mapM,
      mapM_eq_none_of_mem hmem hv.ofValue?_eq_none]

end Argument

namespace Event

/-! ## Severities and locations -/

/-- The name that a severity is recorded as. -/
def Severity.name : Severity → String
  | warning => "warning"
  | error => "error"
  | fatal => "fatal-error"

theorem Severity.ofName?_eq_some_iff {name : String} {severity : Severity} :
    ofName? name = some severity ↔ name = severity.name := by
  constructor
  · intro h
    unfold ofName? at h
    split at h <;> cases h <;> rfl
  · rintro rfl
    cases severity <;> rfl

namespace Location

/-- The keys of a location, in order. -/
def keys : List String :=
  ["character_offset", "line", "column"]

/-- The coordinates of a location under their keys. -/
def toEntries (l : Location) : List (String × Value) :=
  [("character_offset", .integer l.offset), ("line", .integer l.line),
    ("column", .integer l.column)]

/-- A value that a location is recorded as: its coordinates, under their keys in any order, or as an
array. -/
inductive Records (l : Location) : Value → Prop
  | table {entries : List (String × Value)} : entries.Perm l.toEntries → l.Records (.table entries)
  | array : l.Records (.array [.integer l.offset, .integer l.line, .integer l.column])

/-- A value that is no location for one of two reasons. -/
inductive Spoiled (v : Value) : Prop
  /-- A coordinate is missing. -/
  | missing {key : String} : key ∈ keys → (v.partsBy keys).lookup key = none → Spoiled v
  /-- A coordinate is no whole number, or beyond 32 bits. -/
  | coordinate {key : String} {part : Value} : key ∈ keys →
      (v.partsBy keys).lookup key = some part →
      (∀ number, Word.fitsSigned 32 number = true → part ≠ .integer number) → Spoiled v

theorem ofParts?_eq_some_iff {offset line column : Value} {l : Location} :
    ofParts? offset line column = some l ↔
      offset = .integer l.offset ∧ line = .integer l.line ∧ column = .integer l.column := by
  obtain ⟨o, n, c⟩ := l
  simp only [ofParts?, Option.bind_eq_bind, Option.bind_eq_some_iff, Option.pure_def,
    Option.some.injEq, mk.injEq, Value.word?_eq_some_iff]
  constructor
  · rintro ⟨_, ho, _, hn, _, hc, rfl, rfl, rfl⟩
    exact ⟨ho, hn, hc⟩
  · rintro ⟨ho, hn, hc⟩
    exact ⟨o, ho, n, hn, c, hc, rfl, rfl, rfl⟩

/-- What is read as a location has a word under each key. -/
theorem exists_coordinate_of_ofValue? {v : Value} {l : Location} (h : ofValue? v = some l) :
    ∀ key ∈ keys, ∃ word : Int32, (v.partsBy keys).lookup key = some (.integer word) := by
  have hparts : ∃ offset line column,
      (v.partsBy keys).lookup "character_offset" = some offset ∧
        (v.partsBy keys).lookup "line" = some line ∧
        (v.partsBy keys).lookup "column" = some column ∧ ofParts? offset line column = some l := by
    unfold ofValue? at h
    split at h
    · simp only [Option.bind_eq_bind, Option.bind_eq_some_iff] at h
      obtain ⟨-, -, offset, hoffset, line, hline, column, hcolumn, h⟩ := h
      exact ⟨offset, line, column, hoffset, hline, hcolumn, h⟩
    · rename_i offset line column _
      exact ⟨offset, line, column, rfl, rfl, rfl, h⟩
    · cases h
  obtain ⟨offset, line, column, hoffset, hline, hcolumn, hl⟩ := hparts
  obtain ⟨rfl, rfl, rfl⟩ := ofParts?_eq_some_iff.mp hl
  simp only [keys, List.mem_cons, List.not_mem_nil, or_false]
  rintro key (rfl | rfl | rfl)
  · exact ⟨_, hoffset⟩
  · exact ⟨_, hline⟩
  · exact ⟨_, hcolumn⟩

theorem Spoiled.ofValue?_eq_none {v : Value} (h : Spoiled v) : ofValue? v = none := by
  cases hv : ofValue? v with
  | none => rfl
  | some l =>
    cases h with
    | missing hkey hnone =>
      obtain ⟨word, hsome⟩ := exists_coordinate_of_ofValue? hv _ hkey
      rw [hnone] at hsome
      cases hsome
    | coordinate hkey hpart hne =>
      obtain ⟨word, hsome⟩ := exists_coordinate_of_ofValue? hv _ hkey
      rw [hpart] at hsome
      exact absurd (Option.some.inj hsome) (hne word (Word.fitsSigned_toInt word))

theorem Records.ofValue?_eq {l : Location} {v : Value} (h : l.Records v) : ofValue? v = some l := by
  have hparts : ofParts? (.integer l.offset) (.integer l.line) (.integer l.column) = some l :=
    ofParts?_eq_some_iff.mpr ⟨rfl, rfl, rfl⟩
  cases h with
  | array => exact hparts
  | @table entries hperm =>
    have hnodup : (l.toEntries.map (·.1)).Nodup := by
      show keys.Nodup
      decide
    have hlookup (key : String) : entries.lookup key = l.toEntries.lookup key :=
      (OrderedMap.lookup_eq_of_perm hperm.symm hnodup key).symm
    have hreadable : Value.entriesAreReadable entries = true := by
      rw [Value.entriesAreReadable_iff]
      intro entry hentry
      simp only [hperm.mem_iff, toEntries, List.mem_cons, List.not_mem_nil, or_false] at hentry
      rcases hentry with rfl | rfl | rfl <;> rfl
    rw [ofValue?, hreadable, hlookup, hlookup, hlookup]
    exact hparts

end Location

/-! ## Records -/

/-- The whole numbers in the arguments of an event are such that a record can hold them. -/
def Fits (e : Event) : Prop :=
  ∀ a ∈ e.arguments, a.Fits

/-- The entry for a part that need not be there. -/
def entryOf (key : String) (part : Option Value) : List (String × Value) :=
  (part.map fun v ↦ (key, v)).toList

/-- The parts of an event under their keys, if its arguments and its location are recorded as given
values. -/
def toEntries (e : Event) (arguments location : Option Value) : List (String × Value) :=
  [("domain", .string e.domain), ("key", .string e.key)] ++ entryOf "arguments" arguments ++
    [("severity", .string e.severity.name)] ++ entryOf "location" location ++
    entryOf "exception" (e.exception.map .string)

/-- A value that an event is recorded as. -/
inductive Records (e : Event) : Value → Prop
  /-- A table with the keys in any order.  Arguments may be left out if there are none, and a
  location or an exception is there just if the event has one. -/
  | table {entries : List (String × Value)} {arguments location : Option Value} :
      (arguments = some (.array (Argument.toValues e.arguments)) ∨
        (arguments = none ∧ e.arguments = [])) →
      Option.Rel Location.Records e.location location →
      entries.Perm (e.toEntries arguments location) → e.Records (.table entries)
  /-- The array of all parts, in the order of the keys. -/
  | array {elements : List Value} : elements.length = keys.length →
      e.Records (.table (keys.zip elements)) → e.Records (.array elements)

/-- A value that is no event for one of several reasons. -/
inductive Spoiled (v : Value) : Prop
  /-- It has no domain, no key or no severity. -/
  | missing {key : String} : key ∈ ["domain", "key", "severity"] →
      (v.partsBy keys).lookup key = none → Spoiled v
  /-- It has a key that an event does not have. -/
  | unknownKey {entry : String × Value} : entry ∈ v.partsBy keys → entry.1 ∉ keys → Spoiled v
  /-- Its domain, key or exception is no text. -/
  | text {key : String} {part : Value} : key ∈ ["domain", "key", "exception"] →
      (v.partsBy keys).lookup key = some part → (∀ text, part ≠ .string text) → Spoiled v
  /-- Its severity has another name than the three that there are, or none. -/
  | severity {part : Value} : (v.partsBy keys).lookup "severity" = some part →
      (∀ severity : Severity, part.choice? ≠ some severity.name) → Spoiled v
  /-- Its location is spoiled. -/
  | location {part : Value} : (v.partsBy keys).lookup "location" = some part →
      Location.Spoiled part → Spoiled v
  /-- One of its arguments is, or has in it, a date or time or a table. -/
  | arguments {part : Value} : (v.partsBy keys).lookup "arguments" = some part →
      Argument.Foreign part → Spoiled v

/-! ## What is read of a record -/

theorem optional?_eq_some_iff {α : Type} {read? : Value → Option α} {v : Option Value}
    {a : Option α} :
    optional? read? v = some a ↔ Option.Rel (fun a v ↦ read? v = some a) a v := by
  constructor
  · intro h
    cases v with
    | none =>
      cases h
      exact .none
    | some v =>
      obtain ⟨b, hb, rfl⟩ := Option.map_eq_some_iff.mp h
      exact .some hb
  · intro h
    cases h with
    | none => rfl
    | some hb => rw [optional?, hb, Option.map_some]

/-- The parts of which an event is made. -/
theorem ofParts?_eq_some_iff {domain key severity : Value}
    {arguments location exception : Option Value} {e : Event} :
    ofParts? domain key arguments severity location exception = some e ↔
      domain = .string e.domain ∧ key = .string e.key ∧
        (arguments.elim (some []) fun v ↦ v.elements?.bind Argument.ofValues?) =
          some e.arguments ∧
        severity.choice? = some e.severity.name ∧
        optional? Location.ofValue? location = some e.location ∧
        optional? Value.text? exception = some e.exception := by
  obtain ⟨d, k, as, s, l, x⟩ := e
  have harguments : ofParts? domain key arguments severity location exception = (do
      return {
        domain := ← domain.text?
        key := ← key.text?
        arguments := ← arguments.elim (some []) fun v ↦ v.elements?.bind Argument.ofValues?
        severity := ← severity.choice?.bind Severity.ofName?
        location := ← optional? Location.ofValue? location
        exception := ← optional? Value.text? exception }) := by
    cases arguments <;> rfl
  rw [harguments]
  simp only [Option.bind_eq_bind, Option.bind_eq_some_iff, Option.pure_def, Option.some.injEq,
    mk.injEq, Severity.ofName?_eq_some_iff, Value.text?_eq_some_iff]
  constructor
  · rintro ⟨_, hd, _, hk, _, has, _, ⟨_, hs, rfl⟩, _, hl, _, hx, rfl, rfl, rfl, rfl, rfl, rfl⟩
    exact ⟨hd, hk, has, hs, hl, hx⟩
  · rintro ⟨hd, hk, has, hs, hl, hx⟩
    exact ⟨d, hd, k, hk, as, has, s, ⟨_, hs, rfl⟩, l, hl, x, hx, rfl, rfl, rfl, rfl, rfl, rfl⟩

/-- An array of all parts is read like the table of these parts. -/
theorem ofValue?_array {elements : List Value} (h : keys.length ≤ elements.length) :
    ofValue? (.array elements) = ofValue? (.table (keys.zip elements)) := by
  match elements, h with
  | _ :: _ :: _ :: _ :: _ :: _ :: _, _ => rfl

/-- What is read as an event has no other keys than an event, and its parts are those of the
event. -/
theorem parts_of_ofValue? {v : Value} {e : Event} (h : ofValue? v = some e) :
    (∀ entry ∈ v.partsBy keys, entry.1 ∈ keys) ∧
      (v.partsBy keys).lookup "domain" = some (.string e.domain) ∧
      (v.partsBy keys).lookup "key" = some (.string e.key) ∧
      (((v.partsBy keys).lookup "arguments").elim (some [])
        fun v ↦ v.elements?.bind Argument.ofValues?) = some e.arguments ∧
      ((v.partsBy keys).lookup "severity").bind Value.choice? = some e.severity.name ∧
      optional? Location.ofValue? ((v.partsBy keys).lookup "location") = some e.location ∧
      optional? Value.text? ((v.partsBy keys).lookup "exception") = some e.exception := by
  have htable : ofValue? (.table (v.partsBy keys)) = some e := by
    cases v with
    | table entries => exact h
    | array elements =>
      rw [Value.partsBy, ← ofValue?_array]
      · exact h
      · -- An array that is read has an element for each key.
        unfold ofValue? at h
        split at h
        · rename_i heq
          cases heq
        · rename_i heq
          cases heq
          simp [keys]
        · cases h
    | _ => cases h
  simp only [ofValue?, Option.bind_eq_bind, Option.bind_eq_some_iff, Option.guard_eq_some',
    List.all_eq_true, decide_eq_true_eq, ofParts?_eq_some_iff] at htable
  obtain ⟨-, hkeys, _, hdomain, _, hkey, _, hseverity, rfl, rfl, harguments, hname, hlocation,
    hexception⟩ := htable
  exact ⟨hkeys, hdomain, hkey, harguments, Option.bind_eq_some_iff.mpr ⟨_, hseverity, hname⟩,
    hlocation, hexception⟩

theorem Spoiled.ofValue?_eq_none {v : Value} (h : Spoiled v) : ofValue? v = none := by
  cases hv : ofValue? v with
  | none => rfl
  | some e =>
    obtain ⟨hkeys, hdomain, hkey, harguments, hseverity, hlocation, hexception⟩ :=
      parts_of_ofValue? hv
    cases h with
    | missing hmem hnone =>
      simp only [List.mem_cons, List.not_mem_nil, or_false] at hmem
      rcases hmem with rfl | rfl | rfl
      · rw [hnone] at hdomain
        cases hdomain
      · rw [hnone] at hkey
        cases hkey
      · rw [hnone] at hseverity
        cases hseverity
    | unknownKey hmem hnot => exact absurd (hkeys _ hmem) hnot
    | text hmem hpart hne =>
      simp only [List.mem_cons, List.not_mem_nil, or_false] at hmem
      rcases hmem with rfl | rfl | rfl
      · rw [hpart] at hdomain
        exact absurd (Option.some.inj hdomain) (hne _)
      · rw [hpart] at hkey
        exact absurd (Option.some.inj hkey) (hne _)
      · rw [hpart] at hexception
        obtain ⟨text, htext, -⟩ := Option.map_eq_some_iff.mp hexception
        exact absurd (Value.text?_eq_some_iff.mp htext) (hne text)
    | severity hpart hne =>
      rw [hpart, Option.bind_some] at hseverity
      exact absurd hseverity (hne _)
    | location hpart hspoiled =>
      rw [hpart, optional?, hspoiled.ofValue?_eq_none] at hlocation
      cases hlocation
    | arguments hpart hforeign =>
      rw [hpart, Option.elim_some, hforeign.bind_ofValues?_eq_none] at harguments
      cases harguments

theorem lookup_toEntries (e : Event) (arguments location : Option Value) :
    (e.toEntries arguments location).lookup "domain" = some (.string e.domain) ∧
      (e.toEntries arguments location).lookup "key" = some (.string e.key) ∧
      (e.toEntries arguments location).lookup "arguments" = arguments ∧
      (e.toEntries arguments location).lookup "severity" = some (.string e.severity.name) ∧
      (e.toEntries arguments location).lookup "location" = location ∧
      (e.toEntries arguments location).lookup "exception" = e.exception.map .string := by
  obtain ⟨d, k, as, s, l, x⟩ := e
  cases arguments <;> cases location <;> cases x <;> exact ⟨rfl, rfl, rfl, rfl, rfl, rfl⟩

theorem map_entryOf_sublist (key : String) (part : Option Value) :
    ((entryOf key part).map (·.1)).Sublist [key] := by
  cases part with
  | none => exact List.nil_sublist _
  | some v => exact .refl _

/-- The parts of an event stand in the order of the keys, some of which may be left out. -/
theorem map_toEntries_sublist (e : Event) (arguments location : Option Value) :
    ((e.toEntries arguments location).map (·.1)).Sublist keys := by
  have hkeys : keys = ["domain", "key"] ++ ["arguments"] ++ ["severity"] ++ ["location"] ++
    ["exception"] := rfl
  rw [hkeys, toEntries, List.map_append, List.map_append, List.map_append, List.map_append]
  exact ((((List.Sublist.refl _).append (map_entryOf_sublist _ _)).append (.refl _)).append
    (map_entryOf_sublist _ _)).append (map_entryOf_sublist _ _)

theorem Records.ofValue?_eq {e : Event} (hfits : e.Fits) {v : Value} (h : e.Records v) :
    ofValue? v = some e := by
  induction h with
  | array hlength _ ih => rw [ofValue?_array (Nat.le_of_eq hlength.symm), ih]
  | @table entries arguments location harguments hlocation hperm =>
    have hsublist := e.map_toEntries_sublist arguments location
    have hnodup : ((e.toEntries arguments location).map (·.1)).Nodup :=
      hsublist.nodup (by decide)
    have hlookup (key : String) :
        entries.lookup key = (e.toEntries arguments location).lookup key :=
      (OrderedMap.lookup_eq_of_perm hperm.symm hnodup key).symm
    have hkeys : (entries.all fun entry ↦ decide (entry.1 ∈ keys)) = true := by
      rw [List.all_eq_true]
      intro entry hentry
      exact decide_eq_true
        (hsublist.subset (List.mem_map_of_mem (f := (·.1)) (hperm.mem_iff.mp hentry)))
    obtain ⟨hd, hk, has, hs, hl, hx⟩ := e.lookup_toEntries arguments location
    have hread : ofValue? (.table entries) =
        ofParts? (.string e.domain) (.string e.key) arguments (.string e.severity.name) location
          (e.exception.map .string) := by
      rw [ofValue?, hkeys, hlookup, hlookup, hlookup, hlookup, hlookup, hlookup, hd, hk, has, hs,
        hl, hx]
      rfl
    rw [hread, ofParts?_eq_some_iff]
    refine ⟨rfl, rfl, ?_, rfl, ?_, ?_⟩
    · rcases harguments with rfl | ⟨rfl, hnil⟩
      · exact Argument.ofValues?_toValues fun a ha ↦ (hfits a ha).ofValue?_toValue
      · rw [hnil]
        rfl
    · rw [optional?_eq_some_iff]
      cases hloc : e.location with
      | none =>
        rw [hloc] at hlocation
        cases hlocation
        exact .none
      | some l =>
        rw [hloc] at hlocation
        cases hlocation with
        | some hrecords => exact .some hrecords.ofValue?_eq
    · cases e.exception <;> rfl

/-! ## Whole documents -/

/-- The entries of a document that events are recorded as, one record after the other in the array
`event`, which may be left out if there are none. -/
inductive RecordsAll : List Event → List (String × Value) → Prop
  | omitted : RecordsAll [] []
  | array {events : List Event} {records : List Value} : List.Forall₂ Records events records →
      RecordsAll events [("event", .array records)]

/-- The entries of a document that does not record events for one of two reasons. -/
inductive SpoilsAll (entries : List (String × Value)) : Prop
  /-- There is a key besides `event`. -/
  | unknownKey {entry : String × Value} : entry ∈ entries → entry.1 ≠ "event" → SpoilsAll entries
  /-- One of the records is spoiled, wherever it stands. -/
  | record {records : List Value} {v : Value} : entries.lookup "event" = some (.array records) →
      v ∈ records → Spoiled v → SpoilsAll entries

theorem RecordsAll.listOfEntries?_eq {events : List Event} {entries : List (String × Value)}
    (h : RecordsAll events entries) (hfits : ∀ e ∈ events, e.Fits) :
    listOfEntries? entries = some events := by
  cases h with
  | omitted => rfl
  | @array _ records hrecords =>
    have hall : List.Forall₂ (fun v e ↦ ofValue? v = some e) records events := by
      rw [List.forall₂_iff_get] at hrecords ⊢
      obtain ⟨hlength, hget⟩ := hrecords
      refine ⟨hlength.symm, fun i hi hi' ↦ ?_⟩
      exact (hget i hi' hi).ofValue?_eq (hfits _ (List.get_mem _ _))
    exact mapM_eq_some_of_forall₂ hall

theorem SpoilsAll.listOfEntries?_eq_none {entries : List (String × Value)}
    (h : SpoilsAll entries) : listOfEntries? entries = none := by
  cases hread : listOfEntries? entries with
  | none => rfl
  | some events =>
    rw [listOfEntries?, Option.bind_eq_bind, Option.bind_eq_some_iff] at hread
    obtain ⟨_, hkeys, hevents⟩ := hread
    rw [Option.guard_eq_some', List.all_eq_true] at hkeys
    cases h with
    | unknownKey hmem hne => exact absurd (of_decide_eq_true (hkeys _ hmem)) hne
    | record hlookup hmem hspoiled =>
      rw [hlookup] at hevents
      have hnone := mapM_eq_none_of_mem hmem hspoiled.ofValue?_eq_none
      exact absurd (hevents.symm.trans hnone) (Option.some_ne_none events)

/-- **Recorded events are read back, all or none.**  Take the tree of a document.  If events were
recorded as that tree, in any of the ways in which they may be, it gives just these events in order.
The array of all parts of an event is read like the table of them.  If the tree is spoiled anywhere,
it gives no event.  So a file with a text of such a tree gives these events, or the failure to read
events. -/
theorem listOfEntries?_all_or_none :
    (∀ events entries, RecordsAll events entries → (∀ e ∈ events, e.Fits) →
        listOfEntries? entries = some events) ∧
      (∀ elements, keys.length ≤ elements.length →
        ofValue? (.array elements) = ofValue? (.table (keys.zip elements))) ∧
      (∀ entries, SpoilsAll entries → listOfEntries? entries = none) ∧
      ∀ content entries, Toml.ofText? content = some entries →
        (∀ events, RecordsAll events entries → (∀ e ∈ events, e.Fits) →
          Replay.eventsIn (.text content) = .ok events) ∧
        (SpoilsAll entries →
          Replay.eventsIn (.text content) =
            .error (.events "the file is not a list of events")) := by
  refine ⟨fun events entries h hfits ↦ h.listOfEntries?_eq hfits,
    fun elements h ↦ ofValue?_array h, fun entries h ↦ h.listOfEntries?_eq_none,
    fun content entries hcontent ↦ ?_⟩
  have hlist : listOfText? content = listOfEntries? entries := by
    rw [listOfText?, hcontent, Option.bind_some]
  constructor
  · intro events h hfits
    exact Replay.gives_events_iff.mp (.value (hlist.trans (h.listOfEntries?_eq hfits)))
  · intro h
    exact Replay.gives_events_iff.mp (.malformed (hlist.trans h.listOfEntries?_eq_none))

/-- An event with a list in a list is read back from a table with the keys backwards and from an
array.  A date in a list of the second record spoils both records, and another key than `event` a
file. -/
theorem listOfEntries?_all_or_none_of_nested_list :
    let e : Event := ⟨"urn:x", "E", [.list [.list [], .int 3]], .fatal, some ⟨24, 3, 8⟩, some "end"⟩
    let arguments := Value.array [.array [.array [], .integer 3]]
    let location := Value.table [("column", .integer 8), ("line", .integer 3),
      ("character_offset", .integer 24)]
    let asTable := Value.table [("exception", .string "end"), ("location", location),
      ("severity", .string "fatal-error"), ("arguments", arguments), ("key", .string "E"),
      ("domain", .string "urn:x")]
    let asArray := Value.array [.string "urn:x", .string "E", arguments, .string "fatal-error",
      .array [.integer 24, .integer 3, .integer 8], .string "end"]
    let spoiled := Value.table [("domain", .string "urn:x"), ("key", .string "E"),
      ("severity", .string "error"), ("arguments", .array [.array [.dateTime "1979-05-27"]])]
    listOfEntries? [("event", .array [asTable, asArray])] = some [e, e] ∧
      listOfEntries? [("event", .array [asArray, spoiled])] = none ∧
      Replay.eventsIn (.text "urn = 1") = .error (.events "the file is not a list of events") := by
  intro e arguments location asTable asArray spoiled
  have hempty : (Argument.list []).Fits := .list (by simp)
  have hthree : (Argument.int 3).Fits := .int (by decide)
  have hlists : (Argument.list [.list [], .int 3]).Fits := .list (by simp [hempty, hthree])
  have hfits : e.Fits := by simpa [Fits, e] using hlists
  have hlocation : Location.Records ⟨24, 3, 8⟩ location :=
    .table (List.reverse_perm (Location.toEntries ⟨24, 3, 8⟩))
  have hbackwards := List.reverse_perm (e.toEntries (some arguments) (some location))
  have htable : e.Records asTable := .table (Or.inl rfl) (.some hlocation) hbackwards
  have harray : e.Records asArray :=
    .array rfl (.table (Or.inl rfl) (.some .array) (.refl _))
  have hspoiled : Spoiled spoiled :=
    .arguments rfl (.array (.head _) (.array (.head _) (.dateTime _)))
  obtain ⟨hrecorded, -, hnone, htext⟩ := listOfEntries?_all_or_none
  refine ⟨hrecorded [e, e] _ (.array (.cons htable (.cons harray .nil))) (by simpa using hfits),
    hnone _ (.record rfl (.tail _ (.head _)) hspoiled), ?_⟩
  have hread : (Toml.ofText? "urn = 1").any (fun entries ↦ entries.any (·.1 ≠ "event")) = true := by
    decide +kernel
  obtain ⟨entries, hentries, hother⟩ := (Option.any_eq_true _ _).mp hread
  obtain ⟨entry, hmem, hne⟩ := List.any_eq_true.mp hother
  exact (htext _ entries hentries).2 (.unknownKey hmem (of_decide_eq_true hne))

end Event

end XmlDiagnostics
