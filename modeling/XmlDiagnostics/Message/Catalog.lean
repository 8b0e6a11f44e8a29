import XmlDiagnostics.Message.Fallback
import XmlDiagnostics.Message.Template
import XmlDiagnostics.OrderedMap

/-!
# Message catalogs

A `Catalog` maps the keys of errors to templates.  A key that it does not have gives a
message all the same: the key with its arguments.
-/

namespace XmlDiagnostics.Message

/-- Templates by key. -/
abbrev Catalog := OrderedMap String String

namespace Catalog

/-- The message for a key. -/
def format (catalog : Catalog) (key : String) (arguments : List Argument) : String :=
  match catalog.find? key with
  | some template => expand template arguments
  | none => fallback key arguments

end Catalog

end XmlDiagnostics.Message
