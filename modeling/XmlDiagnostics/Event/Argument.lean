import XmlDiagnostics.Decimal.Notation
import XmlDiagnostics.Text.Fields
import XmlDiagnostics.Text.Numeral

/-!
# Arguments of an event

A parser passes values along with the key of an error.  Only their text matters to
messages and searches: `Argument.text`.
-/

namespace XmlDiagnostics

/-- A value that a parser passes along with the key of an error. -/
inductive Argument where
  /-- A truth value. -/
  | bool (value : Bool)
  /-- A whole number. -/
  | int (value : Int)
  /-- A floating-point number. -/
  | float (value : Float)
  /-- A text. -/
  | str (value : String)
  /-- Several values in one. -/
  | list (values : List Argument)

namespace Argument

mutual

/-- The text of an argument.  A list is written as the texts of its values with a comma
and a space between them. -/
def chars : Argument → List Char
  | bool value => (if value then "true" else "false").toList
  | int value => Text.signedDigits value
  | float value => (Decimal.Double.ofFloat value).text
  | str value => value.toList
  | list values => Text.joinWith [',', ' '] (charsOfEach values)

/-- The texts of several arguments. -/
def charsOfEach : List Argument → List (List Char)
  | [] => []
  | a :: rest => a.chars :: charsOfEach rest

end

@[simp] theorem charsOfEach_eq_map (arguments : List Argument) :
    charsOfEach arguments = arguments.map chars := by
  induction arguments with
  | nil => rfl
  | cons a rest ih => simp [charsOfEach, ih]

/-- The text of an argument as a string. -/
def text (a : Argument) : String :=
  String.ofList a.chars

end Argument

end XmlDiagnostics
