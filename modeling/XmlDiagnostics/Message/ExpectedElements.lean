import XmlDiagnostics.Event.Argument
import XmlDiagnostics.Text.Blank
import XmlDiagnostics.Text.Fields

/-!
# Expected elements

A schema error about the children of an element names the elements that may stand there
in one argument, such as `{"http://example.com":title, body}`.  A reader is better served
by a list with one local name on each line.
-/

namespace XmlDiagnostics.Message

namespace ExpectedElements

/-- A text without the characters `c` at its start. -/
def dropLeading (c : Char) (s : List Char) : List Char :=
  s.dropWhile (· = c)

/-- A text without the characters `c` at its end. -/
def dropTrailing (c : Char) (s : List Char) : List Char :=
  (s.reverse.dropWhile (· = c)).reverse

/-- The items of a text in braces: what stands between the commas, without blanks around
it and without empty items. -/
def items (s : List Char) : List (List Char) :=
  let inner := dropTrailing '}' (dropLeading '{' (Text.trim s))
  ((Text.fields ',' inner).map Text.trim).filter (· ≠ [])

/-- The local name of an item: what follows a namespace in quotes and a colon, or all of
an item without a namespace. -/
def localName (item : List Char) : List Char :=
  match item with
  | '"' :: rest =>
    match Text.cutAt? ['"', ':'] rest with
    | some (_, name) => name
    | none => item
  | _ => item

/-- The list for the reader, one line for each item. -/
def lines (s : List Char) : List Char :=
  (items s).flatMap fun item ↦ '\n' :: ' ' :: '-' :: ' ' :: localName item

/-- The argument that stands for the list in a message. -/
def rewrite (argument : Argument) : Argument :=
  .str (String.ofList (lines argument.chars))

end ExpectedElements

end XmlDiagnostics.Message
