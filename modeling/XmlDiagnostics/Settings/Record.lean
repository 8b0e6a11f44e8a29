import XmlDiagnostics.Settings
import XmlDiagnostics.Toml.Document

/-!
# Recorded settings

Settings are read from a TOML document.  Every key may be missing and has a default then,
and keys that mean nothing are passed over; but the value of a key that means something
has to have the right type, and every number has to be one that a machine can hold.
-/

namespace XmlDiagnostics

open Toml (Value)

/-- What a function reads from a value, or a default if there is no value. -/
def Settings.orDefault? {α : Type} (default : α) (read? : Value → Option α) :
    Option Value → Option α
  | none => some default
  | some value => read? value

namespace ReporterSettings

open Settings (orDefault?)

/-- The texts of an array of strings. -/
def texts? (value : Value) : Option (List String) := do
  (← value.elements?).mapM Value.text?

/-- The settings with given parts. -/
def ofParts? (source locale continueAfterFatal validatePositions toleratedKeys : Option Value) :
    Option ReporterSettings := do
  let default : ReporterSettings := {}
  return {
    source := ← orDefault? default.source Value.text? source
    locale := ← orDefault? default.locale (fun v ↦ v.text?.map Message.Locale.mk) locale
    continueAfterFatal := ← orDefault? default.continueAfterFatal Value.truth? continueAfterFatal
    validatePositions := ← orDefault? default.validatePositions Value.truth? validatePositions
    toleratedKeys := ← orDefault? default.toleratedKeys texts? toleratedKeys }

/-- The settings that a value stands for.  An array gives the first of them in order, and a
date or time gives none. -/
def ofValue? : Value → Option ReporterSettings
  | .table entries => do
    guard (Value.entriesAreReadable entries)
    ofParts? (entries.lookup "source") (entries.lookup "locale")
      (entries.lookup "continue_after_fatal_error") (entries.lookup "validate_locator_positions")
      (entries.lookup "ignored_fatal_keys")
  | .array elements =>
    ofParts? elements[0]? elements[1]? elements[2]? elements[3]? elements[4]?
  | .dateTime _ => some {}
  | _ => none

end ReporterSettings

namespace Settings

/-- The family with a given name. -/
def familyOfName? : String → Option Family
  | "xml" => some .xml
  | "schema" => some .schema
  | _ => none

/-- The settings of a document. -/
def ofEntries? (entries : List (String × Value)) : Option Settings := do
  guard (entries.all fun entry ↦
    entry.1 = "reporter" || entry.1 = "family" || entry.2.isReadable)
  let default : Settings := {}
  return {
    reporter := ← orDefault? default.reporter ReporterSettings.ofValue? (entries.lookup "reporter")
    family := ← orDefault? default.family (fun v ↦ v.choice?.bind familyOfName?)
      (entries.lookup "family") }

/-- The settings that a text records. -/
def ofText? (text : String) : Option Settings :=
  (Toml.ofText? text).bind ofEntries?

end Settings

end XmlDiagnostics
