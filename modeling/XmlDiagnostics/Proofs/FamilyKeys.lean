import XmlDiagnostics.Proofs.FamilySpans

/-!
# What the keys of errors ask for

Many errors are about a part of a start tag that one of their arguments names.  The key says which
part and which argument (`Family.tagPart?`), and the search for that part is all that a family does
then (`Family.span?_eq_find?`): so a fact about one search is a fact about all errors that ask for
it.

What a search finds is a stretch of the text, and it is shown as a range if its end can be counted:
`Family.Shows`.
-/

namespace XmlDiagnostics

/-- A part of a start tag that an argument names. -/
inductive TagPart where
  /-- The name of the tag. -/
  | name
  /-- The name of an attribute. -/
  | attributeName
  /-- The value of an attribute. -/
  | attributeValue
deriving DecidableEq, Repr

/-- The search for a part of a start tag from an offset back. -/
def TagPart.find? (text : List Char) (offset : Nat) (wanted : List Char) :
    TagPart → Option Markup.Span
  | name => (Markup.Tag.startNameBefore? text offset wanted).map (·.span)
  | attributeName => (Markup.Tag.attributeBefore? text offset wanted).map (·.name.span)
  | attributeValue => (Markup.Tag.attributeBefore? text offset wanted).bind (·.value)

/-- The part of a start tag that an error of well-formedness is about, and the index of the argument
that names it. -/
def WellFormedness.tagPart? : WellFormedness → Option (TagPart × Nat)
  | elementPrefixUnbound | elementUnterminated => some (.name, 0)
  | attributeNotUnique | attributeNSNotUnique | attributePrefixUnbound | eqRequiredInAttribute
  | openQuoteExpected => some (.attributeName, 1)
  | emptyPrefixedAttName => some (.attributeName, 0)
  | lessthanInAttValue => some (.attributeValue, 1)
  | entityNotDeclared | eTagRequired | eTagUnterminated | markupEntityMismatch
  | semicolonRequiredInReference => none

/-- The part of a start tag that an error of validity is about, and the index of the argument that
names it. -/
def Validity.tagPart? : Validity → Option (TagPart × Nat)
  | emptyContentNotAllowed | textNotAllowed | invalidContent | incompleteContent
  | undeclaredWildcardElement | noChildExpected | attributeRequired => some (.name, 0)
  | attributeNotAllowed => some (.attributeName, 1)
  | invalidAttributeValue => some (.attributeValue, 1)
  | elementNotDeclared | invalidElementValue | schemaNotFound => none

namespace Family

/-- The part of a start tag that the error with a key is about, and the index of the argument that
names it. -/
def tagPart? (family : Family) (key : String) : Option (TagPart × Nat) :=
  match family with
  | xml => (WellFormedness.ofKey? key).bind (·.tagPart?)
  | schema => (Validity.ofKey? key).bind (·.tagPart?)
  | unknown => none

/-- The keys of the errors about the name of a start tag. -/
example :
    (WellFormedness.all.map (·.key)).filter (fun key ↦ xml.tagPart? key = some (.name, 0)) =
      ["ElementPrefixUnbound", "ElementUnterminated"] ∧
    (Validity.all.map (·.key)).filter (fun key ↦ schema.tagPart? key = some (.name, 0)) =
      ["cvc-complex-type.2.1", "cvc-complex-type.2.3", "cvc-complex-type.2.4.a",
        "cvc-complex-type.2.4.b", "cvc-complex-type.2.4.c", "cvc-complex-type.2.4.d",
        "cvc-complex-type.4"] := by
  decide +kernel

/-- An error is shown at a stretch of a document: that is what is found, and as a range it goes from
the position of its one end to the position of the other. -/
structure Shows (family : Family) (document : Document) (location : Event.Location) (key : String)
    (arguments : List Argument) (s : Markup.Span) : Prop where
  /-- The stretch is what the error is about. -/
  span?_eq : family.span? document.chars location key arguments = some s
  /-- Its range is resolved, if its end is not beyond what can be counted. -/
  exists_range : s.stop < Position.bound → ∃ range : Range,
    document.positionAt s.start = .ok range.start ∧ document.positionAt s.stop = .ok range.stop ∧
      family.resolve? document location key arguments = some range

end Family

variable {part : TagPart} {index offset : Nat} {arguments : List Argument} {wanted : Argument}
  {location : Event.Location}

/-- An error of well-formedness about a part of a start tag is located by the search for what its
argument names. -/
theorem WellFormedness.span?_eq_find? {error : WellFormedness}
    (hpart : error.tagPart? = some (part, index)) (hwanted : arguments[index]? = some wanted)
    (text : List Char) :
    error.span? text offset arguments = part.find? text offset wanted.chars := by
  cases error with
  | attributeNotUnique | attributeNSNotUnique | attributePrefixUnbound | eqRequiredInAttribute
  | openQuoteExpected | emptyPrefixedAttName | lessthanInAttValue | elementPrefixUnbound
  | elementUnterminated =>
    cases hpart
    simp only [span?, hwanted, Option.bind_eq_bind, Option.bind_some, TagPart.find?]
  | entityNotDeclared | eTagRequired | eTagUnterminated | markupEntityMismatch
  | semicolonRequiredInReference => cases hpart

theorem Validity.span?_eq_find? {error : Validity} (hpart : error.tagPart? = some (part, index))
    (hoffset : location.errorOffset? = some offset) (hwanted : arguments[index]? = some wanted)
    (text : List Char) :
    error.span? text location arguments = part.find? text offset wanted.chars := by
  cases error with
  | attributeNotAllowed | invalidAttributeValue | emptyContentNotAllowed | textNotAllowed
  | invalidContent | incompleteContent | undeclaredWildcardElement | noChildExpected
  | attributeRequired =>
    cases hpart
    simp only [span?, hoffset, hwanted, Option.bind_eq_bind, Option.bind_some, TagPart.find?]
  | elementNotDeclared | invalidElementValue | schemaNotFound => cases hpart

namespace Family

variable {family : Family} {document : Document} {key : String} {s : Markup.Span}

/-- What a family finds for an error about a part of a start tag is what the search for that part
finds. -/
theorem span?_eq_find? (hpart : family.tagPart? key = some (part, index))
    (hoffset : location.errorOffset? = some offset) (hwanted : arguments[index]? = some wanted)
    (text : List Char) :
    family.span? text location key arguments = part.find? text offset wanted.chars := by
  cases family with
  | xml =>
    obtain ⟨error, herror, hpart⟩ := Option.bind_eq_some_iff.mp hpart
    simp only [span?, herror, hoffset, Option.bind_eq_bind, Option.bind_some]
    exact WellFormedness.span?_eq_find? hpart hwanted text
  | schema =>
    obtain ⟨error, herror, hpart⟩ := Option.bind_eq_some_iff.mp hpart
    simp only [span?, herror, Option.bind_eq_bind, Option.bind_some]
    exact Validity.span?_eq_find? hpart hoffset hwanted text
  | unknown => cases hpart

theorem shows_of_span? (h : family.span? document.chars location key arguments = some s) :
    family.Shows document location key arguments s where
  span?_eq := h
  exists_range := by
    intro hbound
    obtain ⟨hlt, hstop⟩ := isIn_span? h
    obtain ⟨range, hrange, hstart, hstop⟩ := exists_rangeOf? (Nat.le_of_lt hlt) hstop hbound
    refine ⟨range, hstart, hstop, ?_⟩
    rw [resolve?, h, Option.bind_some, hrange]

/-- An error is not shown at a stretch if what is shown begins at another position. -/
theorem not_exists_range_of_resolve? {start stop : Nat} {position : Position} {shown : Range}
    (hshown : family.resolve? document location key arguments = some shown)
    (hstart : document.positionAt start = .ok position) (hne : position ≠ shown.start) :
    ¬ ∃ range : Range, document.positionAt start = .ok range.start ∧
      document.positionAt stop = .ok range.stop ∧
        family.resolve? document location key arguments = some range := by
  rintro ⟨range, hrange, -, hresolve⟩
  obtain rfl : shown = range := Option.some.inj (hshown.symm.trans hresolve)
  exact hne (Except.ok.inj (hstart.symm.trans hrange))

end Family

end XmlDiagnostics
