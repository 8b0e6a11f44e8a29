import XmlDiagnostics.Event.Argument
import XmlDiagnostics.Markup.OpenElement
import XmlDiagnostics.Markup.Reference
import XmlDiagnostics.Markup.Root

/-!
# Errors of well-formedness

The errors of an XML parser whose place in the document is known more precisely than by
the reported offset: for each of them `WellFormedness.span?` says which search finds what
it is about.  The arguments of these errors name an element first and an attribute after
it.
-/

namespace XmlDiagnostics

/-- An error of well-formedness that is about a known part of the markup. -/
inductive WellFormedness where
  /-- An element has an attribute twice. -/
  | attributeNotUnique
  /-- An element has an attribute twice under one namespace. -/
  | attributeNSNotUnique
  /-- The prefix of an attribute is not declared. -/
  | attributePrefixUnbound
  /-- The prefix of an element is not declared. -/
  | elementPrefixUnbound
  /-- A start tag is not closed. -/
  | elementUnterminated
  /-- The declaration of a prefix is empty. -/
  | emptyPrefixedAttName
  /-- An entity is not declared. -/
  | entityNotDeclared
  /-- There is no equals sign after the name of an attribute. -/
  | eqRequiredInAttribute
  /-- An element has no end tag. -/
  | eTagRequired
  /-- An end tag is not closed. -/
  | eTagUnterminated
  /-- There is a `<` in the value of an attribute. -/
  | lessthanInAttValue
  /-- The document ends inside an element. -/
  | markupEntityMismatch
  /-- The value of an attribute does not begin with a quote. -/
  | openQuoteExpected
  /-- There is no semicolon after a reference to an entity. -/
  | semicolonRequiredInReference
deriving DecidableEq, Repr

namespace WellFormedness

/-- All errors of well-formedness with a known place. -/
def all : List WellFormedness :=
  [attributeNotUnique, attributeNSNotUnique, attributePrefixUnbound, elementPrefixUnbound,
    elementUnterminated, emptyPrefixedAttName, entityNotDeclared, eqRequiredInAttribute,
    eTagRequired, eTagUnterminated, lessthanInAttValue, markupEntityMismatch, openQuoteExpected,
    semicolonRequiredInReference]

/-- The key of an error. -/
def key : WellFormedness → String
  | attributeNotUnique => "AttributeNotUnique"
  | attributeNSNotUnique => "AttributeNSNotUnique"
  | attributePrefixUnbound => "AttributePrefixUnbound"
  | elementPrefixUnbound => "ElementPrefixUnbound"
  | elementUnterminated => "ElementUnterminated"
  | emptyPrefixedAttName => "EmptyPrefixedAttName"
  | entityNotDeclared => "EntityNotDeclared"
  | eqRequiredInAttribute => "EqRequiredInAttribute"
  | eTagRequired => "ETagRequired"
  | eTagUnterminated => "ETagUnterminated"
  | lessthanInAttValue => "LessthanInAttValue"
  | markupEntityMismatch => "MarkupEntityMismatch"
  | openQuoteExpected => "OpenQuoteExpected"
  | semicolonRequiredInReference => "SemicolonRequiredInReference"

/-- The error with a given key. -/
def ofKey? (key : String) : Option WellFormedness :=
  all.find? (·.key = key)

/-- The keys about document type declarations.  A document that does not match its
declarations may still be well formed, so these errors end nothing. -/
def declarationKeys : List String :=
  ["MSG_ATTRIBUTE_NOT_DECLARED", "MSG_ATTRIBUTE_VALUE_NOT_IN_LIST", "MSG_CONTENT_INCOMPLETE",
    "MSG_CONTENT_INVALID", "MSG_ELEMENT_ALREADY_DECLARED", "MSG_ELEMENT_NOT_DECLARED",
    "MSG_ELEMENT_WITH_ID_REQUIRED", "MSG_FIXED_ATTVALUE_INVALID",
    "MSG_REQUIRED_ATTRIBUTE_NOT_SPECIFIED", "ElementDeclUnterminated", "AttNameRequiredInAttDef",
    "DTDNotFound"]

/-- Whether a fatal error with this key lets the parser go on. -/
def toleratesFatal (key : String) : Bool :=
  key = entityNotDeclared.key || key ∈ declarationKeys

/-- The part of a text that an error reported at an offset is about. -/
def span? (text : List Char) (offset : Nat) (arguments : List Argument) :
    WellFormedness → Option Markup.Span
  | attributeNotUnique | attributeNSNotUnique | attributePrefixUnbound | eqRequiredInAttribute
  | openQuoteExpected => do
    let wanted ← arguments[1]?
    (Markup.Tag.attributeBefore? text offset wanted.chars).map (·.name.span)
  | emptyPrefixedAttName => do
    let wanted ← arguments[0]?
    (Markup.Tag.attributeBefore? text offset wanted.chars).map (·.name.span)
  | lessthanInAttValue => do
    let wanted ← arguments[1]?
    (Markup.Tag.attributeBefore? text offset wanted.chars).bind (·.value)
  | elementPrefixUnbound | elementUnterminated => do
    let wanted ← arguments[0]?
    (Markup.Tag.startNameBefore? text offset wanted.chars).map (·.span)
  | eTagRequired => do
    let wanted ← arguments[0]?
    (Markup.OpenElement.nameBefore? text offset wanted.chars).map (·.span)
  | eTagUnterminated => (Markup.Tag.endNameBefore? text offset).map (·.span)
  | markupEntityMismatch => (Markup.Root.name? text).map (·.span)
  | entityNotDeclared | semicolonRequiredInReference => Markup.Reference.before? text offset

end WellFormedness

end XmlDiagnostics
