import XmlDiagnostics.Message.English
import XmlDiagnostics.Message.ExpectedElements
import XmlDiagnostics.Message.Locale

/-!
# Message formatters

A `Formatter` turns a key and its arguments into a message.  Most of them look the key up
in a catalog.  The formatter for schemas also shows expected elements as a list, where an
error says which elements it expected.

A tool may bring its own way to write messages.  A `Wording` is any such way, and the
formatters here are the built-in ones.
-/

namespace XmlDiagnostics.Message

/-- The sentences that end in a list of expected elements, by key. -/
def expectedElementTemplates : Catalog := ⟨[
  ("cvc-complex-type.2.4.a",
    "cvc-complex-type.2.4.a: Invalid content was found starting with element ''\x7b0\x7d''. One of the following is expected:\x7b1\x7d"),
  ("cvc-complex-type.2.4.b",
    "cvc-complex-type.2.4.b: The content of element ''\x7b0\x7d'' is not complete. One of the following is expected:\x7b1\x7d")]⟩

/-- A built-in way to turn keys and arguments into messages. -/
inductive Formatter where
  /-- The templates of a catalog. -/
  | catalog (templates : Catalog)
  /-- The messages of schemas, with lists of expected elements. -/
  | schema

namespace Formatter

/-- The message for a schema error. -/
def formatSchema (key : String) (arguments : List Argument) : String :=
  match expectedElementTemplates.find? key, arguments with
  | some template, element :: expected :: others =>
    expand template (element :: ExpectedElements.rewrite expected :: others)
  | _, _ => Catalog.schema.format key arguments

/-- The message for a key.  All messages are in English, so the locale has no say. -/
def format (formatter : Formatter) (_locale : Locale) (key : String)
    (arguments : List Argument) : String :=
  match formatter with
  | catalog templates => templates.format key arguments
  | schema => formatSchema key arguments

end Formatter

/-- Any way to turn a key and its arguments into a message in the language of a locale. -/
structure Wording where
  /-- The message for a key. -/
  format : Locale → String → List Argument → String

/-- The messages of a built-in formatter. -/
def Formatter.wording (formatter : Formatter) : Wording where
  format := formatter.format

instance : Coe Formatter Wording := ⟨Formatter.wording⟩

end XmlDiagnostics.Message
