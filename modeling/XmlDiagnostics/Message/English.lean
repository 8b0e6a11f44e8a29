import XmlDiagnostics.Message.Catalog

/-!
# The English messages

The catalogs for XML and its namespaces, for XML Schema, and for `xml-model`.
-/

namespace XmlDiagnostics.Message.Catalog

/-- The messages about documents that are not well formed, and about namespaces. -/
def xml : Catalog := ⟨[
  ("AttributeNotUnique",
    "Attribute \"\x7b1\x7d\" was already specified for element \"\x7b0\x7d\"."),
  ("AttributeNSNotUnique",
    "Attribute \"\x7b1\x7d\" bound to namespace \"\x7b2\x7d\" was already specified for element \"\x7b0\x7d\"."),
  ("AttributePrefixUnbound",
    "The prefix \"\x7b2\x7d\" for attribute \"\x7b1\x7d\" associated with an element type \"\x7b0\x7d\" is not bound."),
  ("ContentIllegalInProlog",
    "Content is not allowed in prolog."),
  ("ContentIllegalInTrailingMisc",
    "Content is not allowed in trailing section."),
  ("ElementPrefixUnbound",
    "The prefix \"\x7b1\x7d\" for element \"\x7b0\x7d\" is not bound."),
  ("ElementUnterminated",
    "Element type \"\x7b0\x7d\" must be followed by either attribute specifications, \">\" or \"/>\"."),
  ("EmptyPrefixedAttName",
    "The value of the attribute \"\x7b0\x7d\" is invalid. Prefixed namespace bindings may not be empty."),
  ("EntityNotDeclared",
    "The entity \"\x7b0\x7d\" was referenced, but not declared."),
  ("EqRequiredInAttribute",
    "Attribute name \"\x7b1\x7d\" associated with an element type \"\x7b0\x7d\" must be followed by the '' = '' character."),
  ("ETagRequired",
    "The element type \"\x7b0\x7d\" must be terminated by the matching end-tag \"</\x7b0\x7d>\"."),
  ("ETagUnterminated",
    "The end-tag for element type \"\x7b0\x7d\" must end with a ''>'' delimiter."),
  ("LessthanInAttValue",
    "The value of attribute \"\x7b1\x7d\" associated with an element type \"\x7b0\x7d\" must not contain the ''<'' character."),
  ("MarkupEntityMismatch",
    "XML document structures must start and end within the same entity."),
  ("MarkupNotRecognizedInContent",
    "The content of elements must consist of well-formed character data or markup."),
  ("MarkupNotRecognizedInProlog",
    "The markup in the document preceding the root element must be well-formed."),
  ("OpenQuoteExpected",
    "Open quote is expected for attribute \"\x7b1\x7d\" associated with an  element type  \"\x7b0\x7d\"."),
  ("PITargetRequired",
    "The processing instruction must begin with the name of the target."),
  ("ReservedPITarget",
    "The processing instruction target matching \"[xX][mM][lL]\" is not allowed."),
  ("RootElementRequired",
    "The root element is required in a well-formed document."),
  ("SemicolonRequiredInReference",
    "The reference to entity \"\x7b0\x7d\" must end with the '';'' delimiter."),
  ("VersionInfoRequired",
    "The version is required in the XML declaration."),
  ("MSG_ELEMENT_NOT_DECLARED",
    "Element type \"\x7b0\x7d\" must be declared."),
  ("MSG_ATTRIBUTE_NOT_DECLARED",
    "Attribute \"\x7b1\x7d\" must be declared for element type \"\x7b0\x7d\".")]⟩

/-- The messages about documents that do not match their schema. -/
def schema : Catalog := ⟨[
  ("cvc-attribute.3",
    "cvc-attribute.3: The value ''\x7b2\x7d'' of attribute ''\x7b1\x7d'' on element ''\x7b0\x7d'' is not valid with respect to its type, ''\x7b3\x7d''."),
  ("cvc-complex-type.2.1",
    "cvc-complex-type.2.1: Element ''\x7b0\x7d'' must have no character or element information item [children], because the type''s content type is empty."),
  ("cvc-complex-type.2.3",
    "cvc-complex-type.2.3: Element ''\x7b0\x7d'' cannot have character [children], because the type''s content type is element-only."),
  ("cvc-complex-type.2.4.a",
    "cvc-complex-type.2.4.a: Invalid content was found starting with element ''\x7b0\x7d''. One of ''\x7b1\x7d'' is expected."),
  ("cvc-complex-type.2.4.b",
    "cvc-complex-type.2.4.b: The content of element ''\x7b0\x7d'' is not complete. One of ''\x7b1\x7d'' is expected."),
  ("cvc-complex-type.2.4.c",
    "cvc-complex-type.2.4.c: The matching wildcard is strict, but no declaration can be found for element ''\x7b0\x7d''."),
  ("cvc-complex-type.2.4.d",
    "cvc-complex-type.2.4.d: Invalid content was found starting with element ''\x7b0\x7d''. No child element is expected at this point."),
  ("cvc-complex-type.3.2.2",
    "cvc-complex-type.3.2.2: Attribute ''\x7b1\x7d'' is not allowed to appear in element ''\x7b0\x7d''."),
  ("cvc-complex-type.4",
    "cvc-complex-type.4: Attribute ''\x7b1\x7d'' must appear on element ''\x7b0\x7d''."),
  ("cvc-datatype-valid.1.2.1",
    "cvc-datatype-valid.1.2.1: ''\x7b0\x7d'' is not a valid value for ''\x7b1\x7d''."),
  ("cvc-elt.1.a",
    "cvc-elt.1.a: Cannot find the declaration of element ''\x7b0\x7d''."),
  ("cvc-enumeration-valid",
    "cvc-enumeration-valid: Value ''\x7b0\x7d'' is not facet-valid with respect to enumeration ''\x7b1\x7d''. It must be a value from the enumeration."),
  ("cvc-type.3.1.3",
    "cvc-type.3.1.3: The value ''\x7b1\x7d'' of element ''\x7b0\x7d'' is not valid."),
  ("schema_reference.4",
    "schema_reference.4: Failed to read schema document ''\x7b0\x7d'', because 1) could not find the document; 2) the document could not be read; 3) the root element of the document is not <xsd:schema>.")]⟩

/-- The messages about the processing instruction `xml-model`. -/
def model : Catalog := ⟨[
  ("HrefRequired",
    "The xml-model processing instruction requires an ''href'' pseudo-attribute."),
  ("UnsupportedSchemaType",
    "The schema ''\x7b0\x7d'' referenced by xml-model has the unsupported type ''\x7b1\x7d''."),
  ("SchemaNotFound",
    "The schema ''\x7b0\x7d'' referenced by xml-model cannot be found.")]⟩

end XmlDiagnostics.Message.Catalog
