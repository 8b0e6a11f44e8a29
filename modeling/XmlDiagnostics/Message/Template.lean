import XmlDiagnostics.Event.Argument
import XmlDiagnostics.Text.Blank

/-!
# Message templates

A template is a text with places for arguments.  `{n}`, a number in braces, is the place of
argument `n`.  A single quote starts or ends a stretch in which braces stand for
themselves, and two single quotes are one quote that is meant, inside such a stretch and
outside.

Nothing in a template is an error.  Braces around anything that is not the number of an
argument stand for themselves, and so does all that follows a brace that is never closed.
-/

namespace XmlDiagnostics.Message

/-- The argument that the text between two braces asks for. -/
def argumentAt? (arguments : List Argument) (group : List Char) : Option Argument :=
  (Text.numeral? (Text.trim group)).bind (arguments[·]?)

/-- What stands in the message for braces and the text between them. -/
def expandGroup (arguments : List Argument) (group : List Char) : List Char :=
  match argumentAt? arguments group with
  | some argument => argument.chars
  | none => '{' :: group ++ ['}']

/-- The message for the rest of a template.  `quoted` says whether this rest begins
inside a quoted stretch. -/
def expandFrom (arguments : List Argument) (quoted : Bool) (template : List Char) : List Char :=
  match template with
  | [] => []
  | '\'' :: '\'' :: rest => '\'' :: expandFrom arguments quoted rest
  | '\'' :: rest => expandFrom arguments (!quoted) rest
  | c :: rest =>
    if c = '{' ∧ quoted = false then
      match h : rest.dropWhile (· ≠ '}') with
      | [] => '{' :: rest
      | _ :: after =>
        have : after.length < rest.length + 1 := by
          have := (List.dropWhile_suffix (· ≠ '}') (l := rest)).length_le
          simp only [h, List.length_cons] at this
          omega
        expandGroup arguments (rest.takeWhile (· ≠ '}')) ++ expandFrom arguments quoted after
    else c :: expandFrom arguments quoted rest
termination_by template.length

/-- The message that a template gives with arguments. -/
def expand (template : String) (arguments : List Argument) : String :=
  String.ofList (expandFrom arguments false template.toList)

end XmlDiagnostics.Message
