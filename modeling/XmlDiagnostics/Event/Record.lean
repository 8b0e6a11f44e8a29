import XmlDiagnostics.Decimal.Double
import XmlDiagnostics.Event
import XmlDiagnostics.Toml.Document

/-!
# Recorded events

Events are recorded in a TOML document with one table per event in the array `event`.
The document is read as a whole or not at all: a key that an event does not have, a value
of the wrong type, or a missing value anywhere makes it useless.

A record with named parts may also be written as the array of its parts in order.  All
parts have to be there then, and further ones are not looked at.
-/

namespace XmlDiagnostics

open Toml (Value)

namespace Argument

mutual

/-- The argument that a value stands for.  Whole numbers beyond 64 bits with sign, but
not beyond 64 bits without, become floating-point numbers. -/
def ofValue? : Value → Option Argument
  | .boolean value => some (bool value)
  | .integer number =>
    if Word.fitsSigned 64 number then some (int number)
    else if Word.fitsUnsigned 64 number then
      (Decimal.nearest? false number.toNat 0).map float
    else none
  | .float number => some (float number)
  | .string text => some (str text)
  | .array elements => (ofValues? elements).map list
  | .unreadable => none
  | .dateTime _ => none
  | .table _ => none

/-- The arguments that several values stand for. -/
def ofValues? : List Value → Option (List Argument)
  | [] => some []
  | v :: rest => do
    let argument ← ofValue? v
    let arguments ← ofValues? rest
    return argument :: arguments

end

end Argument

namespace Event

/-- The severity with a given name. -/
def Severity.ofName? : String → Option Severity
  | "warning" => some .warning
  | "error" => some .error
  | "fatal-error" => some .fatal
  | _ => none

/-- The location with given coordinates. -/
def Location.ofParts? (offset line column : Value) : Option Location := do
  return ⟨← offset.word?, ← line.word?, ← column.word?⟩

/-- The location that a value stands for.  A table may have other keys. -/
def Location.ofValue? : Value → Option Location
  | .table entries => do
    guard (Value.entriesAreReadable entries)
    ofParts? (← entries.lookup "character_offset") (← entries.lookup "line")
      (← entries.lookup "column")
  | .array (offset :: line :: column :: _) => ofParts? offset line column
  | _ => none

/-- The keys of an event, in order. -/
def keys : List String :=
  ["domain", "key", "arguments", "severity", "location", "exception"]

/-- What a function reads from a value that need not be there. -/
def optional? {α : Type} (read? : Value → Option α) : Option Value → Option (Option α)
  | none => some none
  | some value => (read? value).map some

/-- The event with given parts. -/
def ofParts? (domain key : Value) (arguments : Option Value) (severity : Value)
    (location exception : Option Value) : Option Event := do
  return {
    domain := ← domain.text?
    key := ← key.text?
    arguments := ← match arguments with
      | none => some []
      | some value => value.elements?.bind Argument.ofValues?
    severity := ← severity.choice?.bind Severity.ofName?
    location := ← optional? Location.ofValue? location
    exception := ← optional? Value.text? exception }

/-- The event that a value stands for. -/
def ofValue? : Value → Option Event
  | .table entries => do
    guard (entries.all fun entry ↦ entry.1 ∈ keys)
    ofParts? (← entries.lookup "domain") (← entries.lookup "key") (entries.lookup "arguments")
      (← entries.lookup "severity") (entries.lookup "location") (entries.lookup "exception")
  | .array (domain :: key :: arguments :: severity :: location :: exception :: _) =>
    ofParts? domain key (some arguments) severity (some location) (some exception)
  | _ => none

/-- The events of a document. -/
def listOfEntries? (entries : List (String × Value)) : Option (List Event) := do
  guard (entries.all fun entry ↦ entry.1 = "event")
  match entries.lookup "event" with
  | none => some []
  | some value => (← value.elements?).mapM ofValue?

/-- The events that a text records. -/
def listOfText? (text : String) : Option (List Event) :=
  (Toml.ofText? text).bind listOfEntries?

end Event

end XmlDiagnostics
