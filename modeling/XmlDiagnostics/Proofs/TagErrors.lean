import XmlDiagnostics.Proofs.FamilyKeys
import XmlDiagnostics.Proofs.WrittenTags

/-!
# Errors inside a written tag

In a tag that is written as a `TagText` only one `<` stands, so from every offset inside the tag
the searches look at this tag first (`TagText.Writes.openingsBefore_eq`), and they read it as it
was written.  What is before the tag and behind it only counts if the tag itself has nothing that
answers to the name that is wanted.

An error at such an offset is therefore shown in the tag: at its name, or at the name or the value
of the last of its attributes up to the offset that answers (`TagText.lastAttribute?`).
-/

namespace XmlDiagnostics

namespace Markup

namespace TagText

/-- A start tag is written as a tag text, or the tag of an empty element is. -/
def Writes (t : TagText) (tag : List Char) : Prop :=
  tag = t.start ∨ tag = t.empty

/-- Of the attributes of a tag whose `<` stands at `start`, the last one that begins at or before an
offset and answers to `wanted`. -/
def lastAttribute? (t : TagText) (start offset : Nat) (wanted : List Char) : Option Attribute :=
  ((t.attributesAt start).filter fun a ↦
    a.name.start ≤ offset && a.name.answersTo wanted).getLast?

namespace Writes

variable {t : TagText} {tag : List Char} {offset : Nat} {wanted : List Char}

/-- A tag is closed behind what it is written as, and there is no `<` in it but the first one. -/
theorem exists_closesTag (h : t.Writes tag) :
    ∃ close, tag = '<' :: (t.chars ++ close) ∧ '<' ∉ t.chars ++ close ∧
      ∀ after, ClosesTag (close ++ after) := by
  have hnot : ∀ {close : List Char}, '<' ∉ close → '<' ∉ t.chars ++ close := by
    intro close hclose hmem
    exact (List.mem_append.mp hmem).elim opening_not_mem_chars hclose
  rcases h with rfl | rfl
  · exact ⟨['>'], rfl, hnot (by decide), fun _ ↦ Or.inl rfl⟩
  · exact ⟨['/', '>'], rfl, hnot (by decide), fun _ ↦ Or.inr rfl⟩

/-- In a written tag there is one place where a tag may begin. -/
theorem openingsIn_eq (h : t.Writes tag) (offset : Nat) (after : List Char) :
    Tag.openingsIn offset after tag = [⟨offset, tag ++ after⟩] := by
  obtain ⟨close, rfl, hnot, -⟩ := h.exists_closesTag
  exact Tag.openingsIn_cons_of_not_mem hnot

theorem isEndTag_eq_false (h : t.Writes tag) (offset : Nat) (after : List Char) :
    Tag.isEndTag ⟨offset, tag ++ after⟩ = false := by
  obtain ⟨close, rfl, -, -⟩ := h.exists_closesTag
  rw [List.cons_append, List.append_assoc]
  exact TagText.isEndTag_eq_false offset

theorem startName?_eq (h : t.Writes tag) (offset : Nat) (after : List Char) :
    Tag.startName? ⟨offset, tag ++ after⟩ = some (t.nameAt offset) := by
  obtain ⟨close, rfl, -, hcloses⟩ := h.exists_closesTag
  rw [List.cons_append, List.append_assoc]
  exact t.startName?_eq offset (EndsAttribute.of_closesTag (hcloses after)).endsName

variable (before after : List Char)

theorem attributes_placeAt (h : t.Writes tag) :
    Tag.attributes (Indexed.placeAt (before ++ (tag ++ after)) before.length) =
      t.attributesAt before.length := by
  obtain ⟨close, rfl, -, hcloses⟩ := h.exists_closesTag
  rw [Indexed.placeAt_append, List.cons_append, List.append_assoc]
  exact t.attributes_eq (hcloses after) before.length

variable {before}

/-- From an offset inside the tag, a search begins with it and goes on before it. -/
theorem openingsBefore_eq (h : t.Writes tag) (hlow : before.length ≤ offset)
    (hhigh : offset < before.length + tag.length) :
    Tag.openingsBefore (before ++ (tag ++ after)) offset =
      Indexed.placeAt (before ++ (tag ++ after)) before.length ::
        (Tag.openingsIn 0 (tag ++ after) before).reverse := by
  obtain ⟨close, rfl, hnot, -⟩ := h.exists_closesTag
  rw [Indexed.placeAt_append]
  exact Tag.openingsBefore_inside hnot after hlow hhigh

/-- A search for a name to which the name of the tag answers finds it. -/
theorem startNameBefore?_eq (h : t.Writes tag) (hlow : before.length ≤ offset)
    (hhigh : offset < before.length + tag.length)
    (hanswers : (t.nameAt before.length).answersTo wanted = true) :
    Tag.startNameBefore? (before ++ (tag ++ after)) offset wanted =
      some (t.nameAt before.length) := by
  have hname : (Tag.startName? (Indexed.placeAt (before ++ (tag ++ after))
      before.length)).filter (·.answersTo wanted) = some (t.nameAt before.length) := by
    rw [Indexed.placeAt_append, h.startName?_eq]
    exact Option.filter_some_pos hanswers
  rw [Tag.startNameBefore?, h.openingsBefore_eq after hlow hhigh, List.findSome?_cons, hname]

/-- A search for an attribute finds the last one of the tag that answers. -/
theorem attributeBefore?_eq (h : t.Writes tag) (hlow : before.length ≤ offset)
    (hhigh : offset < before.length + tag.length) {a : Attribute}
    (hlast : t.lastAttribute? before.length offset wanted = some a) :
    Tag.attributeBefore? (before ++ (tag ++ after)) offset wanted = some a := by
  have hfind : (Tag.attributes (Indexed.placeAt (before ++ (tag ++ after))
      before.length)).reverse.find? (fun a ↦ a.name.start ≤ offset && a.name.answersTo wanted) =
        some a := by
    rw [h.attributes_placeAt, ← List.head?_filter, List.filter_reverse, List.head?_reverse]
    exact hlast
  rw [Tag.attributeBefore?, h.openingsBefore_eq after hlow hhigh, List.findSome?_cons, hfind]

end Writes

end TagText

end Markup

namespace Family

open Markup

/-- Where errors that are reported at an offset inside a tag are shown, if its `<` stands at
`start`. -/
structure ShowsTag (t : TagText) (start : Nat) (document : Document) (location : Event.Location)
    (offset : Nat) : Prop where
  /-- An error about the name of a start tag is shown at the name of the tag, if it is named whole
  or without its prefix. -/
  name : ∀ (family : Family) (key : String) (index : Nat) (arguments : List Argument)
    (wanted : Argument), family.tagPart? key = some (.name, index) →
      arguments[index]? = some wanted →
      wanted.chars = t.name ∨ wanted.chars = Text.lastField ':' t.name →
      family.Shows document location key arguments (t.nameAt start).span
  /-- An error about the name of an attribute is shown at the last attribute of that name. -/
  attributeName : ∀ (family : Family) (key : String) (index : Nat) (arguments : List Argument)
    (wanted : Argument) (a : Attribute), family.tagPart? key = some (.attributeName, index) →
      arguments[index]? = some wanted →
      t.lastAttribute? start offset wanted.chars = some a →
      family.Shows document location key arguments a.name.span
  /-- An error about the value of an attribute is shown at the value of the last attribute of the
  name. -/
  attributeValue : ∀ (family : Family) (key : String) (index : Nat) (arguments : List Argument)
    (wanted : Argument) (a : Attribute) (s : Span),
      family.tagPart? key = some (.attributeValue, index) → arguments[index]? = some wanted →
      t.lastAttribute? start offset wanted.chars = some a → a.value = some s →
      family.Shows document location key arguments s
  /-- If that one has no value, the error is not shown at all. -/
  no_value : ∀ (family : Family) (key : String) (index : Nat) (arguments : List Argument)
    (wanted : Argument) (a : Attribute), family.tagPart? key = some (.attributeValue, index) →
      arguments[index]? = some wanted →
      t.lastAttribute? start offset wanted.chars = some a → a.value = none →
      family.resolve? document location key arguments = none

/-- A tag is read back as it was written, wherever it stands in a document, and errors that are
reported between its angle brackets, or at one of them, are shown where it says. -/
theorem showsTag_of_writes {t : TagText} {before tag after : List Char} {document : Document}
    (htag : t.Writes tag) (hdocument : document.chars = before ++ (tag ++ after)) :
    Tag.attributes (Indexed.placeAt document.chars before.length) = t.attributesAt before.length ∧
    ∀ (location : Event.Location) (offset : Nat), location.errorOffset? = some offset →
      before.length ≤ offset → offset < before.length + tag.length →
      ShowsTag t before.length document location offset := by
  refine ⟨?_, fun location offset hoffset hlow hhigh ↦ ?_⟩
  · rw [hdocument]
    exact htag.attributes_placeAt before after
  constructor
  case name =>
    intro family key index arguments wanted hkey hwanted hname
    have hanswers : (t.nameAt before.length).answersTo wanted.chars = true := by
      rw [Name.answersTo_iff]
      rcases hname with hname | hname
      · exact Or.inl hname.symm
      · exact Or.inr ⟨hname ▸ Text.not_mem_lastField ':' t.name, hname.symm⟩
    refine shows_of_span? ?_
    rw [span?_eq_find? hkey hoffset hwanted, hdocument, TagPart.find?,
      htag.startNameBefore?_eq after hlow hhigh hanswers]
    rfl
  case attributeName =>
    intro family key index arguments wanted a hkey hwanted hlast
    refine shows_of_span? ?_
    rw [span?_eq_find? hkey hoffset hwanted, hdocument, TagPart.find?,
      htag.attributeBefore?_eq after hlow hhigh hlast]
    rfl
  case attributeValue =>
    intro family key index arguments wanted a s hkey hwanted hlast hvalue
    refine shows_of_span? ?_
    rw [span?_eq_find? hkey hoffset hwanted, hdocument, TagPart.find?,
      htag.attributeBefore?_eq after hlow hhigh hlast]
    exact hvalue
  case no_value =>
    intro family key index arguments wanted a hkey hwanted hlast hvalue
    rw [resolve?, span?_eq_find? hkey hoffset hwanted, hdocument, TagPart.find?,
      htag.attributeBefore?_eq after hlow hhigh hlast, Option.bind_some, hvalue]
    rfl

/-- Angle brackets, slashes, equals signs and other quotes in a value are part of it, and the last
attribute of a name counts once the offset has reached it. -/
theorem showsTag_of_writes_closing_in_value :
    let document : Document := .ofString "</b><x:a b c = '>/=\"'\ny:c=\"'\" /><"
    Tag.attributes (Indexed.placeAt document.chars 4) =
        [⟨⟨9, ['b']⟩, none⟩, ⟨⟨11, ['c']⟩, some ⟨15, 21⟩⟩,
          ⟨⟨22, ['y', ':', 'c']⟩, some ⟨26, 29⟩⟩] ∧
      xml.Shows document ⟨5, 1, 5⟩ "ElementUnterminated" [.str "a"] ⟨5, 8⟩ ∧
      xml.Shows document ⟨22, 1, 22⟩ "AttributeNotUnique" [.str "x:a", .str "c"] ⟨11, 12⟩ ∧
      schema.Shows document ⟨32, 2, 11⟩ "cvc-attribute.3" [.str "1", .str "c"] ⟨26, 29⟩ ∧
      xml.resolve? document ⟨32, 2, 11⟩ "LessthanInAttValue" [.str "x:a", .str "b"] = none := by
  intro document
  have hempty : ∀ ch ∈ ([] : List Char), Text.isBlank ch = true := nofun
  have hspace : ∀ ch ∈ [' '], Text.isBlank ch = true := List.forall_mem_singleton.mpr rfl
  have hbreak : ∀ ch ∈ ['\n'], Text.isBlank ch = true := List.forall_mem_singleton.mpr rfl
  have hb : IsName ['b'] := by decide +kernel
  have hc : IsName ['c'] := by decide +kernel
  have hyc : IsName ['y', ':', 'c'] := by decide +kernel
  have hxa : IsName ['x', ':', 'a'] := by decide +kernel
  let single : ValueText :=
    ⟨[' '], [' '], '\'', ['>', '/', '=', '"'], hspace, hspace, rfl, by decide, by decide⟩
  let double : ValueText := ⟨[], [], '"', ['\''], hempty, hempty, rfl, by decide, by decide⟩
  let t : TagText :=
    ⟨['x', ':', 'a'], [⟨[' '], ['b'], none, by simp, hspace, hb⟩,
      ⟨[' '], ['c'], some single, by simp, hspace, hc⟩,
      ⟨['\n'], ['y', ':', 'c'], some double, by simp, hbreak, hyc⟩], [' '], hxa, hspace⟩
  have hdocument : document.chars = ['<', '/', 'b', '>'] ++ (t.empty ++ ['<']) := rfl
  obtain ⟨hattributes, hshows⟩ := showsTag_of_writes (Or.inr rfl) hdocument
  have hfirst := hshows ⟨5, 1, 5⟩ 4 rfl (by decide) (show 4 < 4 + 28 by decide)
  have hmiddle := hshows ⟨22, 1, 22⟩ 21 rfl (by decide) (show 21 < 4 + 28 by decide)
  have hlast := hshows ⟨32, 2, 11⟩ 31 rfl (by decide) (show 31 < 4 + 28 by decide)
  refine ⟨hattributes, ?_, ?_, ?_, ?_⟩
  · exact hfirst.name xml _ 0 _ (.str "a") (by decide +kernel) rfl (Or.inr rfl)
  · exact hmiddle.attributeName xml _ 1 _ (.str "c") ⟨⟨11, ['c']⟩, some ⟨15, 21⟩⟩
      (by decide +kernel) rfl rfl
  · exact hlast.attributeValue schema _ 1 _ (.str "c") ⟨⟨22, ['y', ':', 'c']⟩, some ⟨26, 29⟩⟩ _
      (by decide +kernel) rfl rfl rfl
  · exact hlast.no_value xml _ 1 _ (.str "b") ⟨⟨9, ['b']⟩, none⟩ (by decide +kernel) rfl rfl rfl

end Family

end XmlDiagnostics
