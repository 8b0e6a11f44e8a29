import XmlDiagnostics.Toml.Quoted
import XmlDiagnostics.Toml.Scalar
import XmlDiagnostics.Toml.Tree

/-!
# Statements of a TOML document

A document is a row of statements, each on lines of its own: an entry `key = value`, or a
header that opens a table or one more element of an array of tables.  `Statement.all?`
reads them.  What they mean together is the matter of `Tree`.
-/

namespace XmlDiagnostics.Toml

/-- A statement of a document.  Keys are paths, since a key may have several parts. -/
inductive Statement where
  /-- Gives a value to a key of the open table. -/
  | entry (path : List String) (value : Value)
  /-- Opens a table. -/
  | table (path : List String)
  /-- Opens a new element of an array of tables. -/
  | element (path : List String)

namespace Statement

/-- A text without the spaces and tabs at its start. -/
def dropBlanks (s : List Char) : List Char :=
  s.dropWhile Scalar.isBlank

/-- A text without the blanks, comments and line breaks at its start.  There is none if a
comment has a control character. -/
def dropFiller? (inComment : Bool) : List Char → Option (List Char)
  | [] => some []
  | '\n' :: rest => dropFiller? false rest
  | '\r' :: '\n' :: rest => dropFiller? false rest
  | c :: rest =>
    if inComment then
      if isPlain c then dropFiller? true rest else none
    else if Scalar.isBlank c then dropFiller? false rest
    else if c = '#' then dropFiller? true rest
    else some (c :: rest)

/-- What follows a statement: blanks and a comment up to the end of the line. -/
def endLine? (s : List Char) : Option (List Char) :=
  match dropBlanks s with
  | [] => some []
  | '#' :: rest => dropFiller? true rest
  | '\n' :: rest => some rest
  | '\r' :: '\n' :: rest => some rest
  | _ => none

/-- Whether a character may stand in a key without quotes. -/
def isBareKeyChar (c : Char) : Bool :=
  c.isAlphanum || c = '_' || c = '-'

/-- One part of a key. -/
def keyPart? (s : List Char) : Option (String × List Char) :=
  match Quoted.line? s with
  | some (text, rest) => some (String.ofList text, rest)
  | none =>
    match s.takeWhile isBareKeyChar with
    | [] => none
    | text => some (String.ofList text, s.dropWhile isBareKeyChar)

/-- Keys have at most this many parts, and arrays and tables stand at most this deep in each
other. -/
def maxDepth : Nat := 80

/-- A key with its parts, of which there are at most `bound`, and the blanks after it. -/
def keyUpTo? : Nat → List Char → Option (List String × List Char)
  | 0, _ => none
  | bound + 1, s => do
    let (part, rest) ← keyPart? (dropBlanks s)
    match dropBlanks rest with
    | '.' :: rest =>
      let (path, rest) ← keyUpTo? bound rest
      return (part :: path, rest)
    | rest => return ([part], rest)

/-- A key with its parts, and the blanks after it. -/
def key? (s : List Char) : Option (List String × List Char) :=
  keyUpTo? maxDepth s

/-- A key, an equals sign and a value.  What may stand on either side of the sign is left
out by `skip?`. -/
def pair? (skip? : List Char → Option (List Char))
    (value? : List Char → Option (Value × List Char)) (s : List Char) :
    Option ((List String × Value) × List Char) := do
  let (path, rest) ← key? s
  match ← skip? rest with
  | '=' :: rest =>
    let (value, rest) ← value? (← skip? rest)
    return ((path, value), rest)
  | _ => none

/-- Items with commas between them up to a closing character, of which there are at most
`bound`.  A comma may also stand after the last one. -/
def itemsUpTo? {α : Type} (close : Char) (item? : List Char → Option (α × List Char)) :
    Nat → List Char → Option (List α × List Char)
  | 0, _ => none
  | bound + 1, s => do
    match ← dropFiller? false s with
    | [] => none
    | c :: rest =>
      if c = close then return ([], rest)
      let (item, rest) ← item? (c :: rest)
      match ← dropFiller? false rest with
      | [] => none
      | c :: rest =>
        if c = close then return ([item], rest)
        if c ≠ ',' then none
        let (items, rest) ← itemsUpTo? close item? bound rest
        return (item :: items, rest)

/-- A value that is neither an array nor a table. -/
def scalar? (s : List Char) : Option (Value × List Char) :=
  match Quoted.string? s with
  | some (text, rest) => some (.string (String.ofList text), rest)
  | none => (Scalar.ofWord? (Scalar.word s).1).map fun value ↦ (value, (Scalar.word s).2)

/-- A value in which arrays and tables stand at most `depth` deep in each other.  Inside a table
the parts of a pair may stand on lines of their own. -/
def value? : Nat → List Char → Option (Value × List Char)
  | 0, s => scalar? s
  | depth + 1, s =>
    match s with
    | '[' :: rest => do
      let (elements, rest) ← itemsUpTo? ']' (value? depth) (rest.length + 1) rest
      return (.array elements, rest)
    | '{' :: rest => do
      let (pairs, rest) ← itemsUpTo? '}' (pair? (dropFiller? false) (value? depth))
        (rest.length + 1) rest
      return (← Tree.inlineTable? pairs, rest)
    | _ => scalar? s

/-- The statement at the beginning of a text. -/
def statement? (s : List Char) : Option (Statement × List Char) :=
  match s with
  | '[' :: '[' :: rest => do
    match ← key? rest with
    | (path, ']' :: ']' :: rest) => return (.element path, rest)
    | _ => none
  | '[' :: rest => do
    match ← key? rest with
    | (path, ']' :: rest) => return (.table path, rest)
    | _ => none
  | _ => do
    let ((path, value), rest) ← pair? (some ∘ dropBlanks) (value? maxDepth) s
    return (.entry path value, rest)

/-- The statements of a text, of which there are at most `bound`. -/
def allUpTo? : Nat → List Char → Option (List Statement)
  | 0, _ => none
  | bound + 1, s => do
    match ← dropFiller? false s with
    | [] => return []
    | s =>
      let (statement, rest) ← statement? s
      let statements ← allUpTo? bound (← endLine? rest)
      return statement :: statements

/-- The statements of a document, which may begin with a byte order mark. -/
def all? (s : List Char) : Option (List Statement) :=
  let body := match s with
    | '\ufeff' :: rest => rest
    | _ => s
  allUpTo? (body.length + 1) body

end Statement

end XmlDiagnostics.Toml
