import XmlDiagnostics.Document
import XmlDiagnostics.Event
import XmlDiagnostics.Family.Validity
import XmlDiagnostics.Family.WellFormedness

/-!
# Families of errors

A `Family` knows the errors of one kind of tool: where in a document they are, and which
fatal errors let the tool go on.  These two answers are all that a reporter asks for, so a
tool may also come with `Family.Rules` of its own.
-/

namespace XmlDiagnostics

/-- What is known about the errors of a tool. -/
inductive Family where
  /-- The errors of an XML parser. -/
  | xml
  /-- The errors of a validator for XML Schema. -/
  | schema
  /-- Nothing is known. -/
  | unknown
deriving DecidableEq, Repr

namespace Family

/-- The family with a given name; the case of ASCII letters does not matter. -/
def ofName? (name : String) : Option Family :=
  let lower := String.ofList (name.toList.map Char.toLower)
  if lower = "xml" then some xml
  else if lower = "schema" ∨ lower = "xsd" then some schema
  else none

/-- The sentence about a name that is no family. -/
def unknownNameMessage (name : String) : String :=
  "unknown error family `" ++ String.ofList (name.toList.map Char.toLower) ++
    "` (expected `xml` or `schema`)"

/-- Whether a fatal error with this key lets the tool go on. -/
def toleratesFatal (family : Family) (key : String) : Bool :=
  match family with
  | xml => WellFormedness.toleratesFatal key
  | schema => false
  | unknown => false

/-- The part of a text that the error with a key is about. -/
def span? (family : Family) (text : List Char) (location : Event.Location) (key : String)
    (arguments : List Argument) : Option Markup.Span :=
  match family with
  | xml => do
    let error ← WellFormedness.ofKey? key
    error.span? text (← location.errorOffset?) arguments
  | schema => do (← Validity.ofKey? key).span? text location arguments
  | unknown => none

/-- The range of the positions of the two ends of a span. -/
def rangeOf? (document : Document) (span : Markup.Span) : Option Range :=
  match document.positionAt span.start, document.positionAt span.stop with
  | .ok start, .ok stop => some ⟨start, stop⟩
  | _, _ => none

/-- The range of what the error with a key is about. -/
def resolve? (family : Family) (document : Document) (location : Event.Location) (key : String)
    (arguments : List Argument) : Option Range :=
  (family.span? document.chars location key arguments).bind (rangeOf? document)

/-- What a reporter asks about the errors of a tool. -/
structure Rules where
  /-- The range of what the error with a key, reported at a location, is about. -/
  resolve? : Document → Event.Location → String → List Argument → Option Range
  /-- Whether a fatal error with a key lets the tool go on. -/
  toleratesFatal : String → Bool

/-- What is known about a family, as answers to the two questions. -/
def rules (family : Family) : Rules where
  resolve? := family.resolve?
  toleratesFatal := family.toleratesFatal

instance : Coe Family Rules := ⟨rules⟩

@[simp] theorem rules_resolve? (family : Family) : family.rules.resolve? = family.resolve? := rfl

@[simp] theorem rules_toleratesFatal (family : Family) :
    family.rules.toleratesFatal = family.toleratesFatal := rfl

end Family

end XmlDiagnostics
