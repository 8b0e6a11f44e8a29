import XmlDiagnostics.Position

/-!
# Documents

A `Document` is a text whose places are named in three ways: by the number of characters
before them (an *offset*), by line and character (a *position*), and by the number of
bytes before them in UTF-8.  `positionAt`, `offsetAt` and `byteOffset?` go from one to
another.

A line ends with a line feed, with a carriage return, or with a carriage return and a
line feed together.  `lineStarts` lists where the lines begin, and both directions
between offsets and positions read that list.
-/

namespace XmlDiagnostics

/-- A text, character by character. -/
@[ext]
structure Document where
  /-- The characters of the text in order. -/
  chars : List Char
deriving DecidableEq

namespace Document

/-- Why a place is not in a document. -/
inductive LocationError where
  /-- There are fewer characters than the offset asks for. -/
  | offsetOutOfRange (offset length : Nat)
  /-- There are fewer lines than the position asks for. -/
  | lineOutOfRange (line lineCount : Nat)
deriving DecidableEq, Repr

/-- The sentence for a missing place. -/
def LocationError.message : LocationError → String
  | .offsetOutOfRange offset length =>
    "offset " ++ toString offset ++ " is outside the document (length " ++ toString length ++ ")"
  | .lineOutOfRange line lineCount =>
    "line " ++ toString line ++ " is outside the document (" ++ toString lineCount ++ " lines)"

/-- The document with a given text. -/
def ofString (text : String) : Document :=
  ⟨text.toList⟩

/-- The number of characters. -/
def length (d : Document) : Nat :=
  d.chars.length

/-- The offsets just after the line ends of a text whose first character has a given
offset. -/
def lineStartsFrom : Nat → List Char → List Nat
  | _, [] => []
  | offset, '\r' :: '\n' :: rest => (offset + 2) :: lineStartsFrom (offset + 2) rest
  | offset, '\r' :: rest => (offset + 1) :: lineStartsFrom (offset + 1) rest
  | offset, '\n' :: rest => (offset + 1) :: lineStartsFrom (offset + 1) rest
  | offset, _ :: rest => lineStartsFrom (offset + 1) rest

/-- The offsets at which the lines of a document begin.  The first line begins at zero,
also when the document is empty. -/
def lineStarts (d : Document) : List Nat :=
  0 :: lineStartsFrom 0 d.chars

/-- The number of lines. -/
def lineCount (d : Document) : Nat :=
  d.lineStarts.length

/-- The position of an offset.  The offset after the last character has one too: the end
of the last line. -/
def positionAt (d : Document) (offset : Nat) : Except LocationError Position :=
  let starts := d.lineStarts.takeWhile (· ≤ offset)
  let position : Position := ⟨starts.length - 1, offset - starts.getLastD 0⟩
  if offset ≤ d.length ∧ position.line < Position.bound ∧ position.character < Position.bound then
    .ok position
  else
    .error (.offsetOutOfRange offset d.length)

/-- The offset of a position.  A character past the end of its line means the start of
the next line, or on the last line the end of the document. -/
def offsetAt (d : Document) (position : Position) : Except LocationError Nat :=
  match d.lineStarts.drop position.line with
  | [] => .error (.lineOutOfRange position.line d.lineCount)
  | start :: later => .ok (min (start + position.character) (later.headD d.length))

/-- The number of bytes of a text in UTF-8. -/
def byteLength : List Char → Nat
  | [] => 0
  | c :: rest => c.utf8Size + byteLength rest

/-- The number of bytes before an offset, if the document has that offset. -/
def byteOffset? (d : Document) (offset : Nat) : Option Nat :=
  if offset ≤ d.length then some (byteLength (d.chars.take offset)) else none

end Document

end XmlDiagnostics
