import XmlDiagnostics.Diagnostic
import XmlDiagnostics.Event.Argument

/-!
# Events

An `Event` is one report of an XML parser: a message domain and a key in it, arguments, a
severity, and where the parser was.  The parser counts from one in words of 32 bits, and writes
numbers below one for what it does not know.
-/

namespace XmlDiagnostics

namespace Event

/-- How the parser classifies an error. -/
inductive Severity where
  /-- A problem that the parser recovers from. -/
  | warning
  /-- The document is not valid. -/
  | error
  /-- The document is not well formed. -/
  | fatal
deriving DecidableEq, Repr

namespace Severity

/-- The severity for a number that a parser sends. -/
def ofCode? : Int → Option Severity
  | 0 => some .warning
  | 1 => some .error
  | 2 => some .fatal
  | _ => none

/-- The words for a severity. -/
def text : Severity → String
  | warning => "warning"
  | error => "error"
  | fatal => "fatal error"

/-- The severity that a reader sees: a fatal error is an error like others. -/
def toDiagnostic : Severity → Diagnostic.Severity
  | warning => .warning
  | error => .error
  | fatal => .error

end Severity

/-- Where the parser was when it reported an error, counted from one. -/
@[ext]
structure Location where
  /-- The number of characters read; the error is just before this place. -/
  offset : Int32
  /-- The line. -/
  line : Int32
  /-- The column on the line. -/
  column : Int32
deriving DecidableEq, Repr

namespace Location

/-- The offset of the error, counted from zero, if the parser knows it. -/
def errorOffset? (l : Location) : Option Nat :=
  if 1 ≤ l.offset.toInt then some (l.offset.toInt - 1).toNat else none

/-- The position of the error, counted from zero, if the parser knows line and column. -/
def position? (l : Location) : Option Position :=
  if 1 ≤ l.line.toInt ∧ 1 ≤ l.column.toInt then
    some ⟨(l.line.toInt - 1).toNat, (l.column.toInt - 1).toNat⟩
  else none

end Location

end Event

/-- One report of a parser. -/
structure Event where
  /-- The address of the domain that the key belongs to. -/
  domain : String
  /-- The key of the kind of error. -/
  key : String
  /-- The values for the message. -/
  arguments : List Argument
  /-- How the parser classifies the error. -/
  severity : Event.Severity
  /-- Where the parser was, if it says so. -/
  location : Option Event.Location
  /-- The message of the failure behind the report, if there is one. -/
  exception : Option String

end XmlDiagnostics
