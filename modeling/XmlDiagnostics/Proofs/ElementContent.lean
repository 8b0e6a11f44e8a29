import XmlDiagnostics.Proofs.FamilyKeys
import XmlDiagnostics.Proofs.WrittenMarkup

/-!
# The content of an element

The value of an element is its content, if there are no elements in it.  An error about it is
reported at the end tag, and what is shown is the text before that tag, up to the nearest `>`: the
last field of the content, where `>` is the separator (`Family.span?_invalidElementValue`).  If that
is empty, the name in the end tag is shown.

The nearest `>` is the one of the start tag, unless there is one in the content.  It may stand there
in well-formed markup, and then only what is behind it is shown, or nothing of the content at all.
-/

namespace XmlDiagnostics

namespace Markup.Tag

theorem contentAtEnd?_append (before content : List Char) :
    contentAtEnd? (before ++ '>' :: content) =
      if Text.lastField '>' content = [] then none
      else some ⟨(before ++ '>' :: content).length - (Text.lastField '>' content).length,
        (before ++ '>' :: content).length⟩ := by
  have hlength : ((before ++ '>' :: content).reverse.takeWhile (· ≠ '>')).length =
      (Text.lastField '>' content).length := by
    rw [← Text.lastField_append_cons '>' before content, Text.lastField, List.length_reverse]
  have hlt : (Text.lastField '>' content).length < (before ++ '>' :: content).length := by
    have hle := (Text.lastField_suffix '>' content).length_le
    rw [List.length_append, List.length_cons]
    omega
  rw [contentAtEnd?, hlength]
  by_cases h : Text.lastField '>' content = []
  · simp [h]
  · rw [if_neg h, if_pos ⟨List.length_pos_iff.mpr h, hlt⟩]

variable {name gap before : List Char} {offset : Nat}

/-- At an end tag, the content is what is at the end of the text before it. -/
theorem contentBefore?_endTag (hname : IsName name) (hgap : ∀ c ∈ gap, Text.isBlank c = true)
    (after : List Char) (hlow : before.length ≤ offset)
    (hhigh : offset < before.length + (endTag name gap).length) :
    contentBefore? (before ++ (endTag name gap ++ after)) offset = contentAtEnd? before := by
  rw [contentBefore?, endTagBefore?_endTag hname hgap after hlow hhigh, Option.bind_some,
    List.take_left]

theorem endNameBefore?_endTag (hname : IsName name) (hgap : ∀ c ∈ gap, Text.isBlank c = true)
    (after : List Char) (hlow : before.length ≤ offset)
    (hhigh : offset < before.length + (endTag name gap).length) :
    endNameBefore? (before ++ (endTag name gap ++ after)) offset =
      some ⟨before.length + 2, name⟩ := by
  rw [endNameBefore?, endTagBefore?_endTag hname hgap after hlow hhigh, Option.bind_some,
    endName?_endTag hname hgap]

end Markup.Tag

namespace Family

open Markup

variable {before content gap after : List Char} {tag : TagText} {document : Document}
  {location : Event.Location} {offset : Nat}

/-- An error about the value of an element, at its end tag, is about the end of its content, from
behind the last `>` there; or about the name in the end tag, if nothing is behind that. -/
theorem span?_invalidElementValue (hgap : ∀ c ∈ gap, Text.isBlank c = true)
    (hdocument : document.chars =
      before ++ (tag.start ++ (content ++ (endTag tag.name gap ++ after))))
    (hoffset : location.errorOffset? = some offset) {stop : Nat}
    (hstop : stop = before.length + tag.start.length + content.length) (hlow : stop ≤ offset)
    (hhigh : offset < stop + (endTag tag.name gap).length) (arguments : List Argument) :
    schema.span? document.chars location "cvc-type.3.1.3" arguments =
      if Text.lastField '>' content = [] then some ⟨stop + 2, stop + 2 + tag.name.length⟩
      else some ⟨stop - (Text.lastField '>' content).length, stop⟩ := by
  have hkey : Validity.ofKey? "cvc-type.3.1.3" = some .invalidElementValue := by decide +kernel
  have hchars : document.chars =
      (before ++ '<' :: tag.chars) ++ '>' :: content ++ (endTag tag.name gap ++ after) := by
    rw [hdocument]
    simp [TagText.start]
  have hlength : ((before ++ '<' :: tag.chars) ++ '>' :: content).length = stop := by
    rw [hstop, TagText.start]
    simp only [List.length_append, List.length_cons, List.length_nil]
    omega
  rw [← hlength] at hlow hhigh
  have hcontent := Tag.contentBefore?_endTag tag.isName_name hgap after hlow hhigh
  have hname := Tag.endNameBefore?_endTag tag.isName_name hgap after hlow hhigh
  simp only [span?, hkey, Validity.span?, hoffset, Option.bind_eq_bind, Option.bind_some]
  rw [hchars, hcontent, hname, Tag.contentAtEnd?_append, hlength]
  split
  · rfl
  · rfl

/-- An error about the value of an element is shown at its content just if there is no `>` in it,
and at the name in its end tag if it has no content. -/
theorem shows_content_iff (hgap : ∀ c ∈ gap, Text.isBlank c = true)
    (hdocument : document.chars =
      before ++ (tag.start ++ (content ++ (endTag tag.name gap ++ after))))
    (hoffset : location.errorOffset? = some offset) {start stop : Nat}
    (hstart : start = before.length + tag.start.length) (hstop : stop = start + content.length)
    (hlow : stop ≤ offset) (hhigh : offset < stop + (endTag tag.name gap).length)
    (arguments : List Argument) :
    (content ≠ [] →
      (schema.Shows document location "cvc-type.3.1.3" arguments ⟨start, stop⟩ ↔ '>' ∉ content)) ∧
    (content = [] → schema.Shows document location "cvc-type.3.1.3" arguments
      ⟨stop + 2, stop + 2 + tag.name.length⟩) := by
  have hspan := span?_invalidElementValue hgap hdocument hoffset (by rw [hstop, hstart]) hlow hhigh
    arguments
  constructor
  · intro hne
    constructor
    · -- What is shown is the end of the content; if it begins where the content does, it is all.
      intro hshows
      have heq := hspan.symm.trans hshows.span?_eq
      split at heq
      · have hlt : stop + 2 = start := congrArg Span.start (Option.some.inj heq)
        omega
      · have hsame : stop - (Text.lastField '>' content).length = start :=
          congrArg Span.start (Option.some.inj heq)
        have hsuffix := Text.lastField_suffix '>' content
        have hle := hsuffix.length_le
        exact Text.lastField_eq_self_iff.mp (hsuffix.eq_of_length (by omega))
    · intro hclosing
      have hall := Text.lastField_eq_self_iff.mpr hclosing
      rw [hall, if_neg hne, hstop, Nat.add_sub_cancel, ← hstop] at hspan
      exact shows_of_span? hspan
  · intro hnil
    rw [hnil, show Text.lastField '>' [] = [] from rfl, if_pos rfl] at hspan
    exact shows_of_span? hspan

/-- A `>` in the value of an attribute and a line end in the content make no difference, and an
element may be without content. -/
theorem shows_content_behind_closing_in_value :
    let document : Document := .ofString "y<a b='>'>1\n2</a ><a></a>"
    schema.Shows document ⟨18, 2, 6⟩ "cvc-type.3.1.3" [] ⟨10, 13⟩ ∧
      schema.Shows document ⟨23, 2, 11⟩ "cvc-type.3.1.3" [] ⟨23, 24⟩ := by
  intro document
  have hempty : ∀ c ∈ ([] : List Char), Text.isBlank c = true := nofun
  have hspace : ∀ c ∈ [' '], Text.isBlank c = true := List.forall_mem_singleton.mpr rfl
  have ha : IsName ['a'] := by decide +kernel
  have hb : IsName ['b'] := by decide +kernel
  let value : ValueText := ⟨[], [], '\'', ['>'], hempty, hempty, rfl, by decide, by decide⟩
  let tag : TagText := ⟨['a'], [⟨[' '], ['b'], some value, by simp, hspace, hb⟩], [], ha, hempty⟩
  let before : List Char := ['y'] ++ (tag.start ++ (['1', '\n', '2'] ++ endTag ['a'] [' ']))
  have hfilled : document.chars = ['y'] ++
      (tag.start ++ (['1', '\n', '2'] ++ (endTag tag.name [' '] ++ "<a></a>".toList))) := rfl
  have hbare : document.chars =
      before ++ ((TagText.bare ['a'] ha).start ++ ([] ++ (endTag ['a'] [] ++ []))) := rfl
  have hfirst : Event.Location.errorOffset? ⟨18, 2, 6⟩ = some 17 := rfl
  have hsecond : Event.Location.errorOffset? ⟨23, 2, 11⟩ = some 22 := rfl
  constructor
  · have h := shows_content_iff hspace hfilled hfirst (show 10 = _ from rfl)
      (show 13 = _ from rfl) (show 13 ≤ 17 by decide) (show 17 < 13 + 5 by decide) []
    exact (h.1 (by decide)).mpr (by decide)
  · have h := shows_content_iff hempty hbare hsecond (show 21 = _ from rfl)
      (show 21 = _ from rfl) (show 21 ≤ 22 by decide) (show 22 < 21 + 4 by decide) []
    exact h.2 rfl

/-- Only what is behind a `>` in the content is shown. -/
theorem shows_rest_behind_closing_in_content :
    let content := ['1', ' ', '>', ' ', '2']
    let document : Document := .ofString "<a>1 > 2</a>"
    ∃ ha : IsName ['a'], document.chars =
        [] ++ ((TagText.bare ['a'] ha).start ++ (content ++ (endTag ['a'] [] ++ []))) ∧
      '<' ∉ content ∧ content ≠ [] ∧ Event.Location.errorOffset? ⟨12, 1, 12⟩ = some 11 ∧
      (3 + content.length ≤ 11 ∧ 11 < 3 + content.length + (endTag ['a'] []).length) ∧
      ¬ ∃ range, document.positionAt 3 = .ok range.start ∧
        document.positionAt (3 + content.length) = .ok range.stop ∧
        schema.resolve? document ⟨12, 1, 12⟩ "cvc-type.3.1.3" [.str "a", .str "1 > 2"] =
          some range := by
  intro content document
  have hshown : schema.resolve? document ⟨12, 1, 12⟩ "cvc-type.3.1.3" [.str "a", .str "1 > 2"] =
      some ⟨⟨0, 6⟩, ⟨0, 8⟩⟩ := by decide +kernel
  have hcontent : document.positionAt 3 = .ok ⟨0, 3⟩ := by decide +kernel
  exact ⟨by decide +kernel, rfl, by decide, by decide, rfl, by decide,
    not_exists_range_of_resolve? hshown hcontent (by decide)⟩

end Family

end XmlDiagnostics
