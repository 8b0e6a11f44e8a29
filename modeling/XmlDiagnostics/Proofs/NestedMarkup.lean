import XmlDiagnostics.Proofs.OpenElements
import XmlDiagnostics.Proofs.Placement
import XmlDiagnostics.Proofs.TagErrors

/-!
# Nested markup

`WellNested` is the beginning of a document in which every end tag closes the element that was
opened last, by its whole name, together with the elements that are still open.  Passing over it
with a stack of names leaves just the open elements that answer to the name that is wanted
(`WellNested.foldl_pass`), so elements that are closed, or empty, are as if they were not there.

An end tag of another name behind it is a fault, and the search for the open element passes over
that end tag first.  If it answers to the name that is wanted, it counts as the end of an element,
although it cannot be the end of this one: then the search goes on to an outer element.
-/

namespace XmlDiagnostics

namespace Markup

/-- The beginning of a document, and the names in the start tags of the elements that are open
behind it, the innermost first. -/
inductive WellNested : List Char → List Name → Prop
  /-- Nothing is open at the beginning. -/
  | nil : WellNested [] []
  /-- Text opens and closes nothing. -/
  | text {before s : List Char} {opened : List Name} : WellNested before opened → '<' ∉ s →
      WellNested (before ++ s) opened
  /-- A start tag opens an element. -/
  | start {before : List Char} {opened : List Name} {tag : TagText} :
      WellNested before opened → tag.IsPlain →
      WellNested (before ++ tag.start) (⟨before.length + 1, tag.name⟩ :: opened)
  /-- The tag of an empty element opens nothing. -/
  | empty {before : List Char} {opened : List Name} {tag : TagText} :
      WellNested before opened → tag.IsPlain → WellNested (before ++ tag.empty) opened
  /-- An end tag closes the innermost element, whose name it repeats. -/
  | stop {before gap : List Char} {name : Name} {opened : List Name} :
      WellNested before (name :: opened) → (∀ c ∈ gap, Text.isBlank c = true) →
      WellNested (before ++ endTag name.chars gap) opened

/-! ## Passing over tags -/

namespace OpenElement

variable {wanted after : List Char} {names : List Name} {tag : TagText} (offset : Nat)

/-- A tag puts its name on the stack, if it answers and the tag is not taken for that of an empty
element. -/
theorem pass_tag {s : List Char} (h : tag.Writes s) :
    pass wanted names ⟨offset, s ++ after⟩ =
      if Tag.isEmptyElement ⟨offset, s ++ after⟩ then names
      else [tag.nameAt offset].filter (·.answersTo wanted) ++ names := by
  rw [pass, h.isEndTag_eq_false, h.startName?_eq]
  cases hempty : Tag.isEmptyElement ⟨offset, s ++ after⟩ with
  | true => simp
  | false => cases hanswers : (tag.nameAt offset).answersTo wanted <;> simp [hanswers]

theorem pass_start (hplain : tag.IsPlain) :
    pass wanted names ⟨offset, tag.start ++ after⟩ =
      [tag.nameAt offset].filter (·.answersTo wanted) ++ names := by
  rw [pass_tag offset (Or.inl rfl), hplain.isEmptyElement_start, if_neg Bool.false_ne_true]

theorem pass_empty (hplain : tag.IsPlain) :
    pass wanted names ⟨offset, tag.empty ++ after⟩ = names := by
  rw [pass_tag offset (Or.inr rfl), hplain.isEmptyElement_empty, if_pos rfl]

/-- An end tag takes a name from the stack, if it answers. -/
theorem pass_endTag {name : List Char} (hname : IsName name) (hafter : EndsName after) :
    pass wanted names ⟨offset, '<' :: '/' :: (name ++ after)⟩ =
      if (⟨offset + 2, name⟩ : Name).answersTo wanted then names.tail else names := by
  rw [pass, if_pos (Tag.isEndTag_slash offset _), Tag.endName?_eq offset hname hafter]
  rfl

end OpenElement

namespace WellNested

variable {before after : List Char} {opened outer : List Name} {innermost : Name}

theorem isName_of_mem (h : WellNested before opened) : ∀ name ∈ opened, IsName name.chars := by
  induction h with
  | nil =>
    intro name hname
    cases hname
  | text _ _ ih => exact ih
  | @start _ _ tag _ _ ih =>
    intro name hname
    rcases List.mem_cons.mp hname with rfl | hname
    · exact tag.isName_name
    · exact ih name hname
  | empty _ _ ih => exact ih
  | stop _ _ ih => exact fun name hname ↦ ih name (List.mem_cons_of_mem _ hname)

theorem stop_le_of_mem (h : WellNested before opened) :
    ∀ name ∈ opened, name.stop ≤ before.length := by
  have happend : ∀ {before s : List Char} {name : Name}, name.stop ≤ before.length →
      name.stop ≤ (before ++ s).length := by
    intro before s name hle
    rw [List.length_append]
    exact Nat.le_add_right_of_le hle
  induction h with
  | nil =>
    intro name hname
    cases hname
  | text _ _ ih => exact fun name hname ↦ happend (ih name hname)
  | @start before _ tag _ _ ih =>
    intro name hname
    rcases List.mem_cons.mp hname with rfl | hname
    · simp only [Name.stop, TagText.start, TagText.chars, List.length_append, List.length_cons]
      omega
    · exact happend (ih name hname)
  | empty _ _ ih => exact fun name hname ↦ happend (ih name hname)
  | stop _ _ ih => exact fun name hname ↦ happend (ih name (List.mem_cons_of_mem _ hname))

/-- Passing over nested markup leaves the open elements that answer to the name. -/
theorem foldl_pass (h : WellNested before opened) (wanted after : List Char) :
    (Tag.openingsIn 0 after before).foldl (OpenElement.pass wanted) [] =
      opened.filter (·.answersTo wanted) := by
  induction h generalizing after with
  | nil => rfl
  | @text before s opened _ hs ih =>
    rw [Tag.openingsIn_append, List.foldl_append, ih, Tag.openingsIn_of_not_mem hs]
    rfl
  | @start before opened tag _ hplain ih =>
    rw [Tag.openingsIn_append, List.foldl_append, ih, TagText.Writes.openingsIn_eq (Or.inl rfl),
      Nat.zero_add, List.foldl_cons, OpenElement.pass_start before.length hplain, List.foldl_nil,
      ← List.filter_append]
    rfl
  | @empty before opened tag _ hplain ih =>
    rw [Tag.openingsIn_append, List.foldl_append, ih, TagText.Writes.openingsIn_eq (Or.inr rfl),
      Nat.zero_add, List.foldl_cons, OpenElement.pass_empty before.length hplain, List.foldl_nil]
  | @stop before gap name opened hbefore hgap ih =>
    have hname := hbefore.isName_of_mem name List.mem_cons_self
    have hrest := opening_not_mem_endTag hname hgap
    have hends : EndsName (gap ++ '>' :: after) := (endsName_cons (by decide)).append_left hgap
    have hanswers : (⟨before.length + 2, name.chars⟩ : Name).answersTo wanted =
        name.answersTo wanted := Name.answersTo_congr rfl wanted
    have happend : '<' :: ('/' :: (name.chars ++ (gap ++ ['>']))) ++ after =
        '<' :: '/' :: (name.chars ++ (gap ++ '>' :: after)) := by simp
    rw [Tag.openingsIn_append, List.foldl_append, ih, endTag,
      Tag.openingsIn_cons_of_not_mem hrest, Nat.zero_add, List.foldl_cons, happend,
      OpenElement.pass_endTag before.length hname hends, List.foldl_nil, hanswers,
      List.filter_cons]
    by_cases h : name.answersTo wanted = true
    · rw [if_pos h, if_pos h, List.tail_cons]
    · rw [if_neg h, if_neg h]

/-! ## An end tag too many -/

variable {m : List Char} {offset : Nat}

/-- At an end tag behind nested markup, the search finds the innermost element that is open, unless
the end tag answers to its name: then it finds the next one outside that does. -/
theorem nameBefore?_eq (h : WellNested before (innermost :: outer)) (hm : IsName m)
    (hafter : EndsName after) (hlow : before.length ≤ offset)
    (hnext : ∀ i, before.length < i → i ≤ offset →
      (before ++ '<' :: '/' :: (m ++ after))[i]? ≠ some '<') :
    OpenElement.nameBefore? (before ++ '<' :: '/' :: (m ++ after)) offset innermost.chars =
      if (⟨before.length + 2, m⟩ : Name).answersTo innermost.chars then
        outer.find? (·.answersTo innermost.chars)
      else some innermost := by
  have hself : innermost.answersTo innermost.chars = true := Name.answersTo_iff.mpr (Or.inl rfl)
  rw [OpenElement.nameBefore?, Tag.openingsBefore_of_last hlow hnext,
    OpenElement.search_cons (OpenElement.search_reverse _ _), h.foldl_pass,
    OpenElement.pass_endTag _ hm hafter, List.filter_cons, if_pos hself]
  split
  · rw [List.tail_cons, ← List.head?_eq_getElem?, List.head?_filter]
  · rfl

end WellNested

end Markup

namespace Family

open Markup

/-- An end tag that does not answer to the name of the innermost open element is reported as its
missing end tag, and what is found is that element, in its own start tag. -/
theorem resolve?_innermost {before m after : List Char} {innermost : Name} {outer : List Name}
    {document : Document} {location : Event.Location} {offset : Nat}
    (hnested : WellNested before (innermost :: outer)) (hm : IsName m) (hafter : EndsName after)
    (hdocument : document.chars = before ++ '<' :: '/' :: (m ++ after))
    (hne : m ≠ innermost.chars)
    (hlocal : ':' ∉ innermost.chars → Text.lastField ':' m ≠ innermost.chars)
    (hoffset : location.errorOffset? = some offset) (hlow : before.length ≤ offset)
    (hnext : ∀ i, before.length < i → i ≤ offset → document.chars[i]? ≠ some '<') :
    ∃ range, document.positionAt innermost.start = .ok range.start ∧
      document.positionAt innermost.stop = .ok range.stop ∧
      xml.resolve? document location "ETagRequired" [.str (String.ofList innermost.chars)] =
        some range := by
  have hother : ¬ (⟨before.length + 2, m⟩ : Name).answersTo innermost.chars = true := by
    rw [Name.answersTo_iff]
    rintro (h | ⟨hcolon, h⟩)
    · exact hne h
    · exact hlocal hcolon h
  have hfound : OpenElement.nameBefore? document.chars offset innermost.chars =
      some innermost := by
    rw [hdocument] at hnext ⊢
    rw [hnested.nameBefore?_eq hm hafter hlow hnext, if_neg hother]
  have hspan : xml.span? document.chars location "ETagRequired"
      [.str (String.ofList innermost.chars)] = some innermost.span := by
    have hchars : (Argument.str (String.ofList innermost.chars)).chars = innermost.chars := by
      rw [Argument.chars, String.toList_ofList]
    have hkey : WellFormedness.ofKey? "ETagRequired" = some .eTagRequired := by decide +kernel
    simp [span?, hkey, hoffset, WellFormedness.span?, hchars, hfound]
  -- The name ends before the reported offset, and that is a coordinate.
  have hstop : innermost.span.stop ≤ before.length :=
    hnested.stop_le_of_mem innermost List.mem_cons_self
  have hlength : innermost.span.stop ≤ document.length := by
    rw [Document.length, hdocument, List.length_append]
    exact Nat.le_add_right_of_le hstop
  have hbound : innermost.span.stop < Position.bound :=
    Nat.lt_of_le_of_lt (Nat.le_trans hstop hlow) (Event.Location.errorOffset_lt_bound hoffset)
  have hle : innermost.span.start ≤ innermost.span.stop := Nat.le_add_right _ _
  obtain ⟨range, hrange, hfirst, hlast⟩ := exists_rangeOf? hle hlength hbound
  refine ⟨range, hfirst, hlast, ?_⟩
  rw [resolve?, hspan, Option.bind_some, hrange]

/-- Namesakes that are closed or empty are passed over. -/
theorem resolve?_innermost_behind_namesakes :
    let before := "<a><x:a></x:a><a/>".toList
    let document : Document := .ofString "<a><x:a></x:a><a/></b>"
    WellNested before [⟨1, ['a']⟩] ∧
      document.chars = before ++ '<' :: '/' :: (['b'] ++ ['>']) ∧
      ∃ range, document.positionAt 1 = .ok range.start ∧ document.positionAt 2 = .ok range.stop ∧
        xml.resolve? document ⟨22, 1, 22⟩ "ETagRequired" [.str "a"] = some range := by
  intro before document
  have ha : IsName ['a'] := by decide +kernel
  have hprefixed : IsName ['x', ':', 'a'] := by decide +kernel
  have hb : IsName ['b'] := by decide +kernel
  have hgap : ∀ c ∈ ([] : List Char), Text.isBlank c = true := by simp
  have hnested : WellNested before [⟨1, ['a']⟩] :=
    (((WellNested.nil.start (TagText.isPlain_bare ha)).start
      (TagText.isPlain_bare hprefixed)).stop hgap).empty (TagText.isPlain_bare ha)
  have hdocument : document.chars = before ++ '<' :: '/' :: (['b'] ++ ['>']) := by decide
  have hoffset : Event.Location.errorOffset? ⟨22, 1, 22⟩ = some 21 := rfl
  have hnext : ∀ i, before.length < i → i ≤ 21 → document.chars[i]? ≠ some '<' := by
    have hbefore : before.length = 18 := by decide
    intro i hlow hhigh
    obtain rfl | rfl | rfl : i = 19 ∨ i = 20 ∨ i = 21 := by omega
    all_goals decide
  exact ⟨hnested, hdocument, resolve?_innermost hnested hb (endsName_cons (by decide)) hdocument
    (by decide) (fun _ ↦ by decide) hoffset (by decide) hnext⟩

/-- An end tag with the name of the innermost open element behind a prefix counts as its end, so
the element around it is found. -/
theorem resolve?_eTagRequired_of_prefixed :
    let before := "<a><a>".toList
    let document : Document := .ofString "<a><a></ns:a>"
    WellNested before [⟨4, ['a']⟩, ⟨1, ['a']⟩] ∧
      document.chars = before ++ '<' :: '/' :: ("ns:a".toList ++ ['>']) ∧
      IsName "ns:a".toList ∧ "ns:a".toList ≠ ['a'] ∧ EndsName ['>'] ∧
      Event.Location.errorOffset? ⟨7, 1, 7⟩ = some before.length ∧
      ¬ ∃ range, document.positionAt 4 = .ok range.start ∧
        document.positionAt 5 = .ok range.stop ∧
        xml.resolve? document ⟨7, 1, 7⟩ "ETagRequired" [.str "a"] = some range := by
  intro before document
  have ha : IsName ['a'] := by decide +kernel
  have hprefixed : IsName "ns:a".toList := by decide +kernel
  have hnested : WellNested before [⟨4, ['a']⟩, ⟨1, ['a']⟩] :=
    (WellNested.nil.start (TagText.isPlain_bare ha)).start (TagText.isPlain_bare ha)
  refine ⟨hnested, by decide, hprefixed, by decide, endsName_cons (by decide), rfl, ?_⟩
  rintro ⟨range, hstart, -, hrange⟩
  have hfound : xml.resolve? document ⟨7, 1, 7⟩ "ETagRequired" [.str "a"] =
      some ⟨⟨0, 1⟩, ⟨0, 2⟩⟩ := by decide +kernel
  have hinner : document.positionAt 4 = .ok ⟨0, 4⟩ := by decide +kernel
  cases hfound.symm.trans hrange
  cases hinner.symm.trans hstart

end Family

end XmlDiagnostics
