import XmlDiagnostics.Event.Argument

/-!
# Messages without a template

An error that no template is known for is shown as its name followed by its arguments,
like the query of an address: `name?first&second&third`.
-/

namespace XmlDiagnostics.Message

/-- The arguments after the name of an error: a question mark before the first one and an
ampersand before each other one. -/
def query : List (List Char) → List Char
  | [] => []
  | text :: others => '?' :: text ++ others.flatMap ('&' :: ·)

/-- The message for an error that has only a name. -/
def fallback (name : String) (arguments : List Argument) : String :=
  String.ofList (name.toList ++ query (arguments.map Argument.chars))

end XmlDiagnostics.Message
