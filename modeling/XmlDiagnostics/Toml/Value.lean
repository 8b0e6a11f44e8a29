import XmlDiagnostics.Word

/-!
# Values of a TOML document

A TOML document is a table, and a table has values by key.  `Value` is the tree that a
document stands for, whatever spelling was chosen for it.
-/

namespace XmlDiagnostics.Toml

/-- A value of a TOML document. -/
inductive Value where
  /-- A text. -/
  | string (text : String)
  /-- A whole number. -/
  | integer (number : Int)
  /-- A floating-point number. -/
  | float (number : Float)
  /-- A word that is taken for a number but has no value: it is beyond every machine number,
  or not all of its characters are digits. -/
  | unreadable
  /-- A truth value. -/
  | boolean (value : Bool)
  /-- A date, a time, or both, as it was written. -/
  | dateTime (text : String)
  /-- Values in order. -/
  | array (elements : List Value)
  /-- Values by key. -/
  | table (entries : List (String × Value))

namespace Value

mutual

/-- Whether all numbers in a value have values. -/
def isReadable : Value → Bool
  | unreadable => false
  | array elements => areReadable elements
  | table entries => entriesAreReadable entries
  | _ => true

/-- Whether all numbers in some values have values. -/
def areReadable : List Value → Bool
  | [] => true
  | v :: rest => v.isReadable && areReadable rest

/-- Whether all numbers in some entries have values. -/
def entriesAreReadable : List (String × Value) → Bool
  | [] => true
  | (_, v) :: rest => v.isReadable && entriesAreReadable rest

end

/-- The text of a string. -/
def text? : Value → Option String
  | string text => some text
  | _ => none

/-- The truth value of a boolean. -/
def truth? : Value → Option Bool
  | boolean value => some value
  | _ => none

/-- The word of 32 bits for an integer, if it can hold the number. -/
def word? : Value → Option Int32
  | integer number => Word.ofInt? number
  | _ => none

/-- The values of an array. -/
def elements? : Value → Option (List Value)
  | array elements => some elements
  | _ => none

/-- One of several names: a string, or a table whose only key is the name and has an empty
value. -/
def choice? : Value → Option String
  | string name => some name
  | table [(name, table [])] => some name
  | table [(name, array [])] => some name
  | _ => none

end Value

end XmlDiagnostics.Toml
