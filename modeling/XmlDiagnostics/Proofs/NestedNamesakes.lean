import XmlDiagnostics.Proofs.AttributeOrder
import XmlDiagnostics.Proofs.NestedMarkup
import XmlDiagnostics.Proofs.TagErrors

/-!
# Namesakes inside an element

An error about an element may be reported at its end tag, once all of its content has been read.
The element is then searched for by its name, from the end tag back to the nearest start tag that
answers (`Tag.startNameBefore?_endTag`).  In nested markup the start tags are the tags that are
written there (`WellNested.isOfTag_of_mem`), and the one that the end tag belongs to is one of
them, but others may be nearer: those of all elements inside the element, also of those that are
closed or empty.  So the element is found just if none of these answers to its name.
-/

namespace XmlDiagnostics

namespace Markup

/-! ## The names in start tags -/

namespace Tag

/-- The names in the start tags of a text that begins at an offset and goes on with `after`. -/
def startNamesIn (offset : Nat) (after s : List Char) : List Name :=
  (openingsIn offset after s).filterMap startName?

variable {s t after name gap before wanted : List Char} {offset : Nat}

theorem startNamesIn_append (offset : Nat) (after s t : List Char) :
    startNamesIn offset after (s ++ t) =
      startNamesIn offset (t ++ after) s ++ startNamesIn (offset + s.length) after t := by
  rw [startNamesIn, openingsIn_append, List.filterMap_append]
  rfl

theorem pairwise_startNamesIn (after s : List Char) :
    (startNamesIn 0 after s).Pairwise fun m n ↦ m.start < n.start := by
  have hopenings : openings (s ++ after) =
      openingsIn 0 after s ++ openingsIn s.length [] after := by
    rw [openings_eq, openingsIn_append, List.append_nil, Nat.zero_add]
  have hpairwise := Indexed.pairwise_openings (s ++ after)
  rw [hopenings, List.pairwise_append] at hpairwise
  have hstart : ∀ c ∈ openingsIn 0 after s, ∀ n, startName? c = some n →
      n.start = c.offset + 1 := by
    intro c hc n hn
    have hmem : c ∈ openings (s ++ after) := hopenings ▸ List.mem_append_left _ hc
    rw [(Name.at?_eq_some hn).1, Cursor.offset_skip_one (Indexed.mem_openings_iff.mp hmem).2]
  rw [startNamesIn, List.pairwise_filterMap]
  refine hpairwise.1.imp_of_mem fun {c d} hc hd hlt m hm n hn ↦ ?_
  rw [hstart c hc m hm, hstart d hd n hn]
  omega

/-- In a text without a `<` there are none. -/
theorem startNamesIn_of_not_mem (h : '<' ∉ s) : startNamesIn offset after s = [] := by
  rw [startNamesIn, openingsIn_of_not_mem h, List.filterMap_nil]

theorem startName?_endTag (offset : Nat) (name gap after : List Char) :
    startName? ⟨offset, endTag name gap ++ after⟩ = none := by
  rw [← Option.not_isSome_iff_eq_none, startName?, Name.isSome_at?]
  exact Bool.false_ne_true

theorem startNamesIn_endTag (hname : IsName name) (hgap : ∀ c ∈ gap, Text.isBlank c = true)
    (offset : Nat) (after : List Char) : startNamesIn offset after (endTag name gap) = [] := by
  have hnone := startName?_endTag offset name gap after
  rw [startNamesIn, endTag, openingsIn_cons_of_not_mem (opening_not_mem_endTag hname hgap)]
  exact List.filterMap_cons_none hnone

/-- The first start tag that answers has the first name that does. -/
theorem findSome?_startName? (wanted : List Char) (places : List Cursor) :
    places.findSome? (fun c ↦ (startName? c).filter (·.answersTo wanted)) =
      (places.filterMap startName?).find? (·.answersTo wanted) := by
  induction places with
  | nil => rfl
  | cons c others ih =>
    rw [List.findSome?_cons, List.filterMap_cons]
    cases startName? c with
    | none => exact ih
    | some n =>
      cases h : n.answersTo wanted with
      | true =>
        have hfilter : (some n).filter (fun n : Name ↦ n.answersTo wanted) = some n :=
          Option.filter_some_pos h
        rw [hfilter, List.find?_cons, h]
      | false =>
        have hfilter : (some n).filter (fun n : Name ↦ n.answersTo wanted) = none :=
          Option.filter_some_neg (by simp [h])
        rw [hfilter, List.find?_cons, h]
        exact ih

/-- From an offset inside an end tag, the search for a name goes back over the start tags before
that end tag. -/
theorem startNameBefore?_endTag (hname : IsName name) (hgap : ∀ c ∈ gap, Text.isBlank c = true)
    (after wanted : List Char) (hlow : before.length ≤ offset)
    (hhigh : offset < before.length + (endTag name gap).length) :
    startNameBefore? (before ++ (endTag name gap ++ after)) offset wanted =
      (startNamesIn 0 (endTag name gap ++ after) before).reverse.find? (·.answersTo wanted) := by
  rw [startNameBefore?, openingsBefore_endTag hname hgap after hlow hhigh, findSome?_startName?,
    List.filterMap_cons_none (startName?_endTag before.length name gap after),
    List.filterMap_reverse, startNamesIn]

end Tag

/-! ## The tags that are written -/

/-- A start tag or the tag of an empty element stands at an index of a text. -/
def TagText.StandsAt (t : TagText) (text : List Char) (i : Nat) : Prop :=
  ∃ before tag after, t.Writes tag ∧ text = before ++ (tag ++ after) ∧ before.length = i

namespace TagText

variable {t : TagText} {text : List Char} {i : Nat}

theorem StandsAt.append_right (h : t.StandsAt text i) (s : List Char) :
    t.StandsAt (text ++ s) i := by
  obtain ⟨before, tag, after, htag, rfl, hi⟩ := h
  exact ⟨before, tag, after ++ s, htag, by simp, hi⟩

theorem Writes.standsAt {tag : List Char} (h : t.Writes tag) (before : List Char) :
    t.StandsAt (before ++ tag) before.length :=
  ⟨before, tag, [], h, by rw [List.append_nil], rfl⟩

/-- The name of a tag alone is the name in it. -/
theorem Writes.startNamesIn_eq {tag : List Char} (h : t.Writes tag) (offset : Nat)
    (after : List Char) : Tag.startNamesIn offset after tag = [t.nameAt offset] := by
  rw [Tag.startNamesIn, h.openingsIn_eq, List.filterMap_cons_some (h.startName?_eq offset after),
    List.filterMap_nil]

/-- The name of a tag that stands in a text is the name of one of its start tags. -/
theorem StandsAt.mem_startNamesIn (h : t.StandsAt text i) (after : List Char) :
    t.nameAt i ∈ Tag.startNamesIn 0 after text := by
  obtain ⟨before, tag, behind, htag, rfl, rfl⟩ := h
  rw [Tag.startNamesIn_append, Tag.startNamesIn_append, Nat.zero_add, htag.startNamesIn_eq]
  simp

end TagText

/-- A name is that of a tag in a text. -/
def Name.IsOfTag (text : List Char) (n : Name) : Prop :=
  ∃ t i, TagText.StandsAt t text i ∧ t.nameAt i = n

theorem Name.IsOfTag.append_right {text : List Char} {n : Name} (h : n.IsOfTag text)
    (s : List Char) : n.IsOfTag (text ++ s) := by
  obtain ⟨t, i, hstands, hname⟩ := h
  exact ⟨t, i, hstands.append_right s, hname⟩

/-- A tag adds its own name to those of the tags before it. -/
theorem TagText.Writes.isOfTag_of_mem {t : TagText} {before tag after : List Char} {n : Name}
    (h : t.Writes tag) (hbefore : n ∈ Tag.startNamesIn 0 (tag ++ after) before → n.IsOfTag before)
    (hn : n ∈ Tag.startNamesIn 0 after (before ++ tag)) : n.IsOfTag (before ++ tag) := by
  rw [Tag.startNamesIn_append, Nat.zero_add, h.startNamesIn_eq, List.mem_append,
    List.mem_singleton] at hn
  rcases hn with hn | hn
  · exact (hbefore hn).append_right tag
  · exact ⟨t, before.length, h.standsAt before, hn.symm⟩

namespace WellNested

variable {before after gap : List Char} {opened outer : List Name} {innermost : Name} {n : Name}

/-- In nested markup there are no other start tags than those that are written. -/
theorem isOfTag_of_mem (h : WellNested before opened)
    (hn : n ∈ Tag.startNamesIn 0 after before) : n.IsOfTag before := by
  induction h generalizing after with
  | nil => cases hn
  | text _ hs ih =>
    rw [Tag.startNamesIn_append, Tag.startNamesIn_of_not_mem hs, List.append_nil] at hn
    exact (ih hn).append_right _
  | start _ _ ih => exact TagText.Writes.isOfTag_of_mem (Or.inl rfl) ih hn
  | empty _ _ ih => exact TagText.Writes.isOfTag_of_mem (Or.inr rfl) ih hn
  | stop hbefore hgap ih =>
    have hname := hbefore.isName_of_mem _ List.mem_cons_self
    rw [Tag.startNamesIn_append, Tag.startNamesIn_endTag hname hgap, List.append_nil] at hn
    exact (ih hn).append_right _

/-- What is open has a start tag that is written. -/
theorem isOfTag_of_mem_opened (h : WellNested before opened) (hn : n ∈ opened) :
    n.IsOfTag before := by
  induction h with
  | nil => cases hn
  | text _ _ ih => exact (ih hn).append_right _
  | @start before _ tag _ _ ih =>
    rcases List.mem_cons.mp hn with rfl | hn
    · exact ⟨tag, before.length, TagText.Writes.standsAt (Or.inl rfl) before, rfl⟩
    · exact (ih hn).append_right _
  | empty _ _ ih => exact (ih hn).append_right _
  | stop _ _ ih => exact (ih (List.mem_cons_of_mem _ hn)).append_right _

/-- At the end tag of an element, the search for its name finds it just if no tag inside it
answers. -/
theorem startNameBefore?_eq_some_iff (h : WellNested before (innermost :: outer))
    (hgap : ∀ c ∈ gap, Text.isBlank c = true) {offset : Nat} (hlow : before.length ≤ offset)
    (hhigh : offset < before.length + (endTag innermost.chars gap).length) :
    (Tag.startNameBefore? (before ++ (endTag innermost.chars gap ++ after)) offset
        innermost.chars).map (·.span) = some innermost.span ↔
      ∀ t i, TagText.StandsAt t before i → innermost.start ≤ i →
        (t.nameAt i).answersTo innermost.chars = false := by
  have hname := h.isName_of_mem innermost List.mem_cons_self
  have hself : innermost.answersTo innermost.chars = true := Name.answersTo_iff.mpr (Or.inl rfl)
  have hpairwise := Tag.pairwise_startNamesIn (endTag innermost.chars gap ++ after) before
  rw [Tag.startNameBefore?_endTag hname hgap after innermost.chars hlow hhigh]
  constructor
  · intro hfound t i hstands hinside
    obtain ⟨n, hn, hspan⟩ := Option.map_eq_some_iff.mp hfound
    obtain ⟨-, hlast⟩ := (find?_reverse_eq_some_iff hpairwise).mp hn
    have hstart : n.start = innermost.start := congrArg Span.start hspan
    rw [Bool.eq_false_iff]
    intro hanswers
    -- A name that answers does not begin behind the one that is found.
    have hle : i + 1 ≤ n.start := by
      rcases hlast _ (hstands.mem_startNamesIn _) hanswers with heq | hlt
      · exact Nat.le_of_eq (congrArg Name.start heq)
      · exact Nat.le_of_lt hlt
    omega
  · intro hinside
    obtain ⟨t, i, hstands, hopened⟩ := h.isOfTag_of_mem_opened List.mem_cons_self
    have hmem : innermost ∈ Tag.startNamesIn 0 (endTag innermost.chars gap ++ after) before :=
      hopened ▸ hstands.mem_startNamesIn _
    have hfound : (Tag.startNamesIn 0 (endTag innermost.chars gap ++ after) before).reverse.find?
        (·.answersTo innermost.chars) = some innermost := by
      refine (find?_reverse_eq_some_iff hpairwise).mpr ⟨⟨hmem, hself⟩, fun n hn hanswers ↦ ?_⟩
      obtain ⟨t', j, hstands', rfl⟩ := h.isOfTag_of_mem hn
      have hlt : j < innermost.start := by
        by_contra hnot
        rw [hinside t' j hstands' (Nat.le_of_not_lt hnot)] at hanswers
        cases hanswers
      -- Names that begin at one place are the same.
      have hnodup : ((Tag.startNamesIn 0 (endTag innermost.chars gap ++ after) before).map
          Name.start).Nodup := List.pairwise_map.mpr (hpairwise.imp Nat.ne_of_lt)
      rcases Nat.eq_or_lt_of_le hlt with heq | hlt
      · exact Or.inl (List.inj_on_of_nodup_map hnodup hn hmem heq)
      · exact Or.inr hlt
    rw [hfound]
    rfl

end WellNested

end Markup

namespace Family

open Markup

/-- Behind nested markup, an error about the content of the element that is closed last, at its end
tag, is shown at the name in its start tag just if no tag inside the element answers to its
name. -/
theorem shows_closed_element_iff {before gap after : List Char} {innermost : Name}
    {outer : List Name} {document : Document} {location : Event.Location} {offset : Nat}
    {argument : Argument} (hnested : WellNested before (innermost :: outer))
    (hgap : ∀ c ∈ gap, Text.isBlank c = true)
    (hdocument : document.chars = before ++ (endTag innermost.chars gap ++ after))
    (hoffset : location.errorOffset? = some offset) (hlow : before.length ≤ offset)
    (hhigh : offset < before.length + (endTag innermost.chars gap).length)
    (hargument : argument.chars = innermost.chars) (others : List Argument) :
    schema.Shows document location "cvc-complex-type.2.4.b" (argument :: others) innermost.span ↔
      ∀ t i, TagText.StandsAt t before i → innermost.start ≤ i → t.name ≠ innermost.chars ∧
        (':' ∉ innermost.chars → Text.lastField ':' t.name ≠ innermost.chars) := by
  have hkey : schema.tagPart? "cvc-complex-type.2.4.b" = some (.name, 0) := by decide +kernel
  have hspan : schema.span? document.chars location "cvc-complex-type.2.4.b" (argument :: others) =
      (Tag.startNameBefore? (before ++ (endTag innermost.chars gap ++ after)) offset
        innermost.chars).map (·.span) := by
    rw [span?_eq_find? hkey hoffset rfl, TagPart.find?, hdocument, hargument]
  have hanswers : ∀ (t : TagText) (i : Nat), (t.nameAt i).answersTo innermost.chars = false ↔
      t.name ≠ innermost.chars ∧
        (':' ∉ innermost.chars → Text.lastField ':' t.name ≠ innermost.chars) := by
    intro t i
    rw [Bool.eq_false_iff, ne_eq, Name.answersTo_iff, not_or, not_and]
    rfl
  have hshows : schema.Shows document location "cvc-complex-type.2.4.b" (argument :: others)
      innermost.span ↔ schema.span? document.chars location "cvc-complex-type.2.4.b"
        (argument :: others) = some innermost.span := ⟨Shows.span?_eq, shows_of_span?⟩
  rw [hshows, hspan, hnested.startNameBefore?_eq_some_iff hgap hlow hhigh]
  exact forall₂_congr fun t i ↦ imp_congr_right fun _ ↦ imp_congr_right fun _ ↦ hanswers t i

/-- Elements of other names inside, and namesakes around it, make no difference. -/
theorem shows_closed_element_in_namesake :
    let before := "<a><a><b/>".toList
    let document : Document := .ofString "<a><a><b/></a></a>"
    WellNested before [⟨4, ['a']⟩, ⟨1, ['a']⟩] ∧
      schema.Shows document ⟨14, 1, 14⟩ "cvc-complex-type.2.4.b" [.str "a", .str "\x7bc\x7d"]
        ⟨4, 5⟩ := by
  intro before document
  have ha : IsName ['a'] := by decide +kernel
  have hb : IsName ['b'] := by decide +kernel
  have hgap : ∀ c ∈ ([] : List Char), Text.isBlank c = true := nofun
  have hnested : WellNested before [⟨4, ['a']⟩, ⟨1, ['a']⟩] :=
    ((WellNested.nil.start (TagText.isPlain_bare ha)).start (TagText.isPlain_bare ha)).empty
      (TagText.isPlain_bare hb)
  have hdocument : document.chars = before ++ (endTag ['a'] [] ++ "</a>".toList) := by decide
  have hnames : Tag.startNamesIn 0 [] before = [⟨1, ['a']⟩, ⟨4, ['a']⟩, ⟨7, ['b']⟩] := by
    decide +kernel
  refine ⟨hnested, (shows_closed_element_iff hnested hgap hdocument rfl (by decide)
    (show 13 < 10 + 4 by decide) (show (Argument.str "a").chars = ['a'] by decide) _).mpr ?_⟩
  intro t i hstands (hinside : 4 ≤ i)
  have hmem := hstands.mem_startNamesIn []
  rw [hnames] at hmem
  -- Only one name stands behind the start tag.
  have hb : t.nameAt i = ⟨7, ['b']⟩ := by
    rcases List.mem_cons.mp hmem with h | hmem
    · have hi : i + 1 = 1 := congrArg Name.start h
      omega
    · rcases List.mem_cons.mp hmem with h | hmem
      · have hi : i + 1 = 4 := congrArg Name.start h
        omega
      · exact List.mem_singleton.mp hmem
  have hname : t.name = ['b'] := congrArg Name.chars hb
  rw [hname]
  exact ⟨by decide, fun _ ↦ by decide⟩

/-- A namesake inside is shown for the element that is closed. -/
theorem shows_namesake_for_closed_element :
    let before := "<a><a></a>".toList
    let document : Document := .ofString "<a><a></a></a>"
    WellNested before [⟨1, ['a']⟩] ∧
      document.chars = before ++ (endTag ['a'] [] ++ []) ∧
      Event.Location.errorOffset? ⟨14, 1, 14⟩ = some 13 ∧
      (before.length ≤ 13 ∧ 13 < before.length + (endTag ['a'] []).length) ∧
      ¬ ∃ range, document.positionAt 1 = .ok range.start ∧
        document.positionAt 2 = .ok range.stop ∧
        schema.resolve? document ⟨14, 1, 14⟩ "cvc-complex-type.2.4.b" [.str "a", .str "\x7bb\x7d"] =
          some range := by
  intro before document
  have ha : IsName ['a'] := by decide +kernel
  have hgap : ∀ c ∈ ([] : List Char), Text.isBlank c = true := nofun
  have hnested : WellNested before [⟨1, ['a']⟩] :=
    ((WellNested.nil.start (TagText.isPlain_bare ha)).start (TagText.isPlain_bare ha)).stop hgap
  have hshown : schema.resolve? document ⟨14, 1, 14⟩ "cvc-complex-type.2.4.b"
      [.str "a", .str "\x7bb\x7d"] = some ⟨⟨0, 4⟩, ⟨0, 5⟩⟩ := by decide +kernel
  have houter : document.positionAt 1 = .ok ⟨0, 1⟩ := by decide +kernel
  exact ⟨hnested, by decide, rfl, by decide,
    not_exists_range_of_resolve? hshown houter (by decide)⟩

end Family

end XmlDiagnostics
