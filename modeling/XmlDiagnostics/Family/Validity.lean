import XmlDiagnostics.Event
import XmlDiagnostics.Markup.Root

/-!
# Errors of validity

The errors of a validator for XML Schema whose place in the document is known more
precisely than by the reported offset.  A validator reports an element once it has read a
tag of it, so the searches go back from there to what the arguments name: an element
first and an attribute after it.
-/

namespace XmlDiagnostics

/-- An error of validity that is about a known part of the markup. -/
inductive Validity where
  /-- An element that has to be empty has content. -/
  | emptyContentNotAllowed
  /-- There is text among elements. -/
  | textNotAllowed
  /-- An element stands where another one is expected. -/
  | invalidContent
  /-- An element is missing at the end of its parent. -/
  | incompleteContent
  /-- An element is allowed here only if it is declared, and it is not. -/
  | undeclaredWildcardElement
  /-- An element stands where none is expected. -/
  | noChildExpected
  /-- An attribute may not stand on its element. -/
  | attributeNotAllowed
  /-- An attribute is missing on its element. -/
  | attributeRequired
  /-- The value of an attribute does not have the right type. -/
  | invalidAttributeValue
  /-- The root element is not declared. -/
  | elementNotDeclared
  /-- The text of an element does not have the right type. -/
  | invalidElementValue
  /-- The schema cannot be read. -/
  | schemaNotFound
deriving DecidableEq, Repr

namespace Validity

/-- All errors of validity with a known place. -/
def all : List Validity :=
  [emptyContentNotAllowed, textNotAllowed, invalidContent, incompleteContent,
    undeclaredWildcardElement, noChildExpected, attributeNotAllowed, attributeRequired,
    invalidAttributeValue, elementNotDeclared, invalidElementValue, schemaNotFound]

/-- The key of an error. -/
def key : Validity → String
  | emptyContentNotAllowed => "cvc-complex-type.2.1"
  | textNotAllowed => "cvc-complex-type.2.3"
  | invalidContent => "cvc-complex-type.2.4.a"
  | incompleteContent => "cvc-complex-type.2.4.b"
  | undeclaredWildcardElement => "cvc-complex-type.2.4.c"
  | noChildExpected => "cvc-complex-type.2.4.d"
  | attributeNotAllowed => "cvc-complex-type.3.2.2"
  | attributeRequired => "cvc-complex-type.4"
  | invalidAttributeValue => "cvc-attribute.3"
  | elementNotDeclared => "cvc-elt.1.a"
  | invalidElementValue => "cvc-type.3.1.3"
  | schemaNotFound => "schema_reference.4"

/-- The error with a given key. -/
def ofKey? (key : String) : Option Validity :=
  all.find? (·.key = key)

/-- The value that names the schema on the root element. -/
def schemaReference? (text : List Char) : Option Markup.Span :=
  ((Markup.Root.attribute? text "schemaLocation".toList).or
    (Markup.Root.attribute? text "noNamespaceSchemaLocation".toList)).bind (·.value)

/-- The part of a text that an error reported at a location is about.  Two errors are
about the root element wherever they are reported; all others need the offset. -/
def span? (text : List Char) (location : Event.Location) (arguments : List Argument) :
    Validity → Option Markup.Span
  | elementNotDeclared => (Markup.Root.name? text).map (·.span)
  | schemaNotFound => schemaReference? text
  | attributeNotAllowed => do
    let offset ← location.errorOffset?
    let wanted ← arguments[1]?
    (Markup.Tag.attributeBefore? text offset wanted.chars).map (·.name.span)
  | invalidAttributeValue => do
    let offset ← location.errorOffset?
    let wanted ← arguments[1]?
    (Markup.Tag.attributeBefore? text offset wanted.chars).bind (·.value)
  | invalidElementValue => do
    let offset ← location.errorOffset?
    (Markup.Tag.contentBefore? text offset).or
      ((Markup.Tag.endNameBefore? text offset).map (·.span))
  | emptyContentNotAllowed | textNotAllowed | invalidContent | incompleteContent
  | undeclaredWildcardElement | noChildExpected | attributeRequired => do
    let offset ← location.errorOffset?
    let wanted ← arguments[0]?
    (Markup.Tag.startNameBefore? text offset wanted.chars).map (·.span)

end Validity

end XmlDiagnostics
