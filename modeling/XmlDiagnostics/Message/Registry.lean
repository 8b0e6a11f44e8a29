import XmlDiagnostics.Message.Domain
import XmlDiagnostics.Message.Formatter

/-!
# Formatters by domain

A `Registry` says which formatter is responsible for a domain.  The messages of XML, its
namespaces, XML Schema and `xml-model` are built in; a tool may register others.
-/

namespace XmlDiagnostics.Message

/-- Formatters by domain, in the order in which the domains were registered. -/
abbrev Registry := OrderedMap Domain Wording

namespace Registry

/-- The registry with the built-in formatters. -/
def builtin : Registry := ⟨[
  (.xml, Formatter.catalog Catalog.xml),
  (.namespaces, Formatter.catalog Catalog.xml),
  (.schema, Formatter.schema),
  (.model, Formatter.catalog Catalog.model)]⟩

/-- The message for an error.  Without a formatter for the domain, the error is named by
the address of its domain and its key. -/
def format (registry : Registry) (locale : Locale) (domain key : String)
    (arguments : List Argument) : String :=
  match registry.find? (.ofAddress domain) with
  | some formatter => formatter.format locale key arguments
  | none => fallback (domain ++ "#" ++ key) arguments

end Registry

end XmlDiagnostics.Message
