import XmlDiagnostics.Proofs.LineIndex
import XmlDiagnostics.Proofs.MarkupSpans

/-!
# What a family finds is in the document

A family answers with a search through the markup, and every search gives a stretch of the
text (`Markup.Span.IsIn`).  Both ends of such a stretch are offsets of the document, so
turning it into a range loses nothing, and the range runs forward.
-/

namespace XmlDiagnostics

variable {text : List Char} {arguments : List Argument} {s : Markup.Span}

theorem WellFormedness.isIn_span? {offset : Nat} {error : WellFormedness}
    (h : error.span? text offset arguments = some s) : s.IsIn text := by
  cases error with
  | attributeNotUnique | attributeNSNotUnique | attributePrefixUnbound | eqRequiredInAttribute
  | openQuoteExpected | emptyPrefixedAttName =>
    obtain ⟨wanted, -, h⟩ := Option.bind_eq_some_iff.mp h
    obtain ⟨a, ha, rfl⟩ := Option.map_eq_some_iff.mp h
    exact (Markup.Tag.isIn_attributeBefore? ha).name
  | lessthanInAttValue =>
    obtain ⟨wanted, -, h⟩ := Option.bind_eq_some_iff.mp h
    obtain ⟨a, ha, hvalue⟩ := Option.bind_eq_some_iff.mp h
    exact (Markup.Tag.isIn_attributeBefore? ha).value s hvalue
  | elementPrefixUnbound | elementUnterminated =>
    obtain ⟨wanted, -, h⟩ := Option.bind_eq_some_iff.mp h
    obtain ⟨n, hn, rfl⟩ := Option.map_eq_some_iff.mp h
    exact Markup.Tag.isIn_startNameBefore? hn
  | eTagRequired =>
    obtain ⟨wanted, -, h⟩ := Option.bind_eq_some_iff.mp h
    obtain ⟨n, hn, rfl⟩ := Option.map_eq_some_iff.mp h
    exact Markup.OpenElement.isIn_nameBefore? hn
  | eTagUnterminated =>
    obtain ⟨n, hn, rfl⟩ := Option.map_eq_some_iff.mp h
    exact Markup.Tag.isIn_endNameBefore? hn
  | markupEntityMismatch =>
    obtain ⟨n, hn, rfl⟩ := Option.map_eq_some_iff.mp h
    exact Markup.Root.isIn_name? hn
  | entityNotDeclared | semicolonRequiredInReference =>
    exact Markup.Reference.isIn_before? h

theorem Validity.isIn_schemaReference? (h : schemaReference? text = some s) : s.IsIn text := by
  obtain ⟨a, ha, hvalue⟩ := Option.bind_eq_some_iff.mp h
  rcases Option.or_eq_some_iff.mp ha with ha | ⟨-, ha⟩
  · exact (Markup.Root.isIn_attribute? ha).value s hvalue
  · exact (Markup.Root.isIn_attribute? ha).value s hvalue

theorem Validity.isIn_span? {location : Event.Location} {error : Validity}
    (h : error.span? text location arguments = some s) : s.IsIn text := by
  cases error with
  | elementNotDeclared =>
    obtain ⟨n, hn, rfl⟩ := Option.map_eq_some_iff.mp h
    exact Markup.Root.isIn_name? hn
  | schemaNotFound => exact isIn_schemaReference? h
  | attributeNotAllowed =>
    obtain ⟨offset, -, h⟩ := Option.bind_eq_some_iff.mp h
    obtain ⟨wanted, -, h⟩ := Option.bind_eq_some_iff.mp h
    obtain ⟨a, ha, rfl⟩ := Option.map_eq_some_iff.mp h
    exact (Markup.Tag.isIn_attributeBefore? ha).name
  | invalidAttributeValue =>
    obtain ⟨offset, -, h⟩ := Option.bind_eq_some_iff.mp h
    obtain ⟨wanted, -, h⟩ := Option.bind_eq_some_iff.mp h
    obtain ⟨a, ha, hvalue⟩ := Option.bind_eq_some_iff.mp h
    exact (Markup.Tag.isIn_attributeBefore? ha).value s hvalue
  | invalidElementValue =>
    obtain ⟨offset, -, h⟩ := Option.bind_eq_some_iff.mp h
    rcases Option.or_eq_some_iff.mp h with h | ⟨-, h⟩
    · exact Markup.Tag.isIn_contentBefore? h
    · obtain ⟨n, hn, rfl⟩ := Option.map_eq_some_iff.mp h
      exact Markup.Tag.isIn_endNameBefore? hn
  | emptyContentNotAllowed | textNotAllowed | invalidContent | incompleteContent
  | undeclaredWildcardElement | noChildExpected | attributeRequired =>
    obtain ⟨offset, -, h⟩ := Option.bind_eq_some_iff.mp h
    obtain ⟨wanted, -, h⟩ := Option.bind_eq_some_iff.mp h
    obtain ⟨n, hn, rfl⟩ := Option.map_eq_some_iff.mp h
    exact Markup.Tag.isIn_startNameBefore? hn

namespace Family

variable {location : Event.Location} {key : String}

/-- What a family knows about an error is a stretch of the text. -/
theorem isIn_span? {family : Family} (h : family.span? text location key arguments = some s) :
    s.IsIn text := by
  cases family with
  | xml =>
    obtain ⟨error, -, h⟩ := Option.bind_eq_some_iff.mp h
    obtain ⟨offset, -, h⟩ := Option.bind_eq_some_iff.mp h
    exact WellFormedness.isIn_span? h
  | schema =>
    obtain ⟨error, -, h⟩ := Option.bind_eq_some_iff.mp h
    exact Validity.isIn_span? h
  | unknown => cases h

variable {document : Document} {range : Range}

theorem rangeOf?_eq_some_iff :
    rangeOf? document s = some range ↔
      document.positionAt s.start = .ok range.start ∧
        document.positionAt s.stop = .ok range.stop := by
  unfold rangeOf?
  split
  · rename_i start stop hstart hstop
    rw [hstart, hstop, Option.some.injEq, Except.ok.injEq, Except.ok.injEq, Range.ext_iff]
  · rename_i hnot
    simp only [reduceCtorEq, false_iff]
    rintro ⟨hstart, hstop⟩
    exact hnot _ _ hstart hstop

/-- A stretch of the document whose ends fit a word has a range. -/
theorem exists_rangeOf? (hle : s.start ≤ s.stop) (hstop : s.stop ≤ document.length)
    (hword : s.stop < Position.bound) :
    ∃ range, rangeOf? document s = some range ∧
      document.positionAt s.start = .ok range.start ∧
      document.positionAt s.stop = .ok range.stop := by
  obtain ⟨start, hstart⟩ := Document.exists_positionAt_of_lt (Nat.le_trans hle hstop)
    (Nat.lt_of_le_of_lt hle hword)
  obtain ⟨stop, hstop⟩ := Document.exists_positionAt_of_lt hstop hword
  exact ⟨⟨start, stop⟩, rangeOf?_eq_some_iff.mpr ⟨hstart, hstop⟩, hstart, hstop⟩

/-- A range from a family comes from a stretch of the text. -/
theorem exists_isIn_of_resolve? {family : Family} {arguments : List Argument}
    (h : family.resolve? document location key arguments = some range) :
    ∃ s : Markup.Span, s.IsIn document.chars ∧
      document.positionAt s.start = .ok range.start ∧
      document.positionAt s.stop = .ok range.stop := by
  obtain ⟨s, hs, hrange⟩ := Option.bind_eq_some_iff.mp h
  obtain ⟨hstart, hstop⟩ := rangeOf?_eq_some_iff.mp hrange
  exact ⟨s, isIn_span? hs, hstart, hstop⟩

/-- A range from a family is a range of the document. -/
theorem isIn_of_resolve? (hlength : document.length < Position.bound) {family : Family}
    {arguments : List Argument}
    (h : family.resolve? document location key arguments = some range) :
    range.IsIn document := by
  obtain ⟨s, hs, hstart, hstop⟩ := exists_isIn_of_resolve? h
  exact Range.isIn_of_positionAt hlength (Nat.le_of_lt hs.start_lt) hstart hstop

end Family

end XmlDiagnostics
