import XmlDiagnostics.Proofs.IndexedPlaces
import XmlDiagnostics.Proofs.MarkupSpans
import XmlDiagnostics.Proofs.WrittenMarkup

/-!
# The order of attributes

A `<` may stand anywhere in broken markup, also inside a value, and passes for the beginning of a
tag.  But the attributes of a tag are read without passing over a `<` (`Cursor.Reaches`), so those
of different tags do not cross: all attributes of a text stand in the order of their names, tag by
tag (`Tag.pairwise_attributesOf`).

The search for an attribute goes through the tags before an offset, the nearest first, and through
the attributes of each from the last one.  Because of that order it is one search from the end
through all attributes of the text (`Tag.attributeBefore?_eq_find?`), and what it finds is the
attribute of the name whose name begins last at or before the offset.
-/

namespace XmlDiagnostics

namespace Markup

/-! ## Places without a `<` between them -/

namespace Cursor

/-- A cursor reaches another one if that is further on in the text, or the same, and no `<` stands
between them. -/
def Reaches (c d : Cursor) : Prop :=
  ∃ between, between ++ d.rest = c.rest ∧ d.offset = c.offset + between.length ∧ '<' ∉ between

variable {text : List Char} {c d e : Cursor}

theorem Reaches.refl (c : Cursor) : c.Reaches c :=
  ⟨[], rfl, rfl, List.not_mem_nil⟩

theorem Reaches.trans (h : c.Reaches d) (h' : d.Reaches e) : c.Reaches e := by
  obtain ⟨first, hfirst, hd, hnot⟩ := h
  obtain ⟨second, hsecond, he, hnot'⟩ := h'
  refine ⟨first ++ second, ?_, ?_, ?_⟩
  · rw [List.append_assoc, hsecond, hfirst]
  · rw [he, hd, List.length_append, Nat.add_assoc]
  · rw [List.mem_append]
    exact not_or.mpr ⟨hnot, hnot'⟩

theorem Reaches.offset_le (h : c.Reaches d) : c.offset ≤ d.offset := by
  obtain ⟨between, -, hd, -⟩ := h
  omega

theorem Reaches.getElem?_ne (h : c.Reaches d) (hc : c.IsIn text) {i : Nat} (hlow : c.offset ≤ i)
    (hhigh : i < d.offset) : text[i]? ≠ some '<' := by
  obtain ⟨between, hrest, hd, hnot⟩ := h
  intro hopening
  have hget : between[i - c.offset]? = some '<' := by
    have happend : (between ++ d.rest)[i - c.offset]? = between[i - c.offset]? :=
      List.getElem?_append_left (by omega)
    rw [← happend, hrest, hc.2, List.getElem?_drop, Nat.add_sub_cancel' hlow, hopening]
  exact hnot (List.mem_of_getElem? hget)

theorem reaches_skip_one {ch : Char} (h : c.peek? = some ch) (hne : ch ≠ '<') :
    c.Reaches (c.skip 1) := by
  obtain ⟨offset, rest⟩ := c
  cases rest with
  | nil => cases h
  | cons first rest =>
    cases h
    exact ⟨[ch], rfl, rfl, fun hmem ↦ hne (List.mem_singleton.mp hmem).symm⟩

/-- Skipping while a test holds does not pass over a `<` if that fails the test. -/
theorem reaches_skipWhile {p : Char → Bool} (hp : p '<' = false) (c : Cursor) :
    c.Reaches (c.skipWhile p) := by
  refine ⟨c.rest.takeWhile p, List.takeWhile_append_dropWhile, rfl, fun hmem ↦ ?_⟩
  have htrue : p '<' = true := List.all_eq_true.mp List.all_takeWhile '<' hmem
  rw [hp] at htrue
  cases htrue

end Cursor

variable {text : List Char} {c d : Cursor}

/-! ## What is read of one tag -/

theorem Name.reaches_after {n : Name} (h : at? c = some n) : c.Reaches (n.after c) := by
  obtain ⟨-, hname, after, -, hrest⟩ := at?_eq_some_iff.mp h
  refine ⟨n.chars, ?_, ?_, hname.not_mem (by decide)⟩
  · rw [Name.after, Cursor.skip, ← hrest, List.drop_left]
  · rw [Name.after, Cursor.skip, ← hrest, List.take_left]

theorem Name.peek?_ne_of_at? {n : Name} (h : at? c = some n) : c.peek? ≠ some '<' := by
  obtain ⟨-, hname, after, -, hrest⟩ := at?_eq_some_iff.mp h
  rw [Cursor.peek?, ← hrest]
  exact hname.head?_ne (by decide) after

namespace Attribute

theorem reaches_skipBlanks (c : Cursor) : c.Reaches (skipBlanks c) :=
  Cursor.reaches_skipWhile (by decide) c

/-- A value ends before the next `<`, whether it is closed or not. -/
theorem reaches_afterValue {quote : Char} (hquote : isQuote quote = true)
    (h : c.peek? = some quote) : c.Reaches (afterValue quote c) := by
  have hne : quote ≠ '<' := by
    rintro rfl
    exact absurd hquote (by decide)
  have hend : c.Reaches (valueEnd quote c) :=
    (Cursor.reaches_skip_one h hne).trans (Cursor.reaches_skipWhile (by simp) _)
  unfold afterValue
  split
  · rename_i hclosed
    exact hend.trans (Cursor.reaches_skip_one hclosed hne)
  · exact hend

theorem reaches_valueAt (c : Cursor) : c.Reaches (valueAt c).2 := by
  unfold valueAt
  split
  · exact .refl c
  · rename_i quote hpeek
    split
    · rename_i hquote
      exact reaches_afterValue hquote hpeek
    · exact .refl c

/-- Reading what follows a name comes to an end before the next `<`. -/
theorem reaches_valueAfter (c : Cursor) : c.Reaches (valueAfter c).2 := by
  have hblanks := reaches_skipBlanks c
  unfold valueAfter
  split
  · rename_i hequals
    have hsign := Cursor.reaches_skip_one hequals (by decide)
    exact ((hblanks.trans hsign).trans (reaches_skipBlanks _)).trans (reaches_valueAt _)
  · exact hblanks

/-- All attributes that are read from a cursor have their names before the next `<`. -/
theorem exists_reaches_of_mem_readAll (c : Cursor) :
    ∀ a ∈ readAll c, ∃ d, c.Reaches d ∧ Name.at? d = some a.name := by
  fun_induction readAll c with
  | case1 c hnone =>
    intro a ha
    cases ha
  | case2 c name hname hlt ih =>
    have hblanks := reaches_skipBlanks c
    intro a ha
    rcases List.mem_cons.mp ha with rfl | ha
    · exact ⟨_, hblanks, hname⟩
    · obtain ⟨d, hd, hat⟩ := ih a ha
      exact ⟨d, ((hblanks.trans (Name.reaches_after hname)).trans (reaches_valueAfter _)).trans hd,
        hat⟩

/-- They are read in the order in which their names begin. -/
theorem pairwise_readAll (c : Cursor) :
    (readAll c).Pairwise fun a b ↦ a.name.start < b.name.start := by
  fun_induction readAll c with
  | case1 => exact .nil
  | case2 c name hname hlt ih =>
    refine List.pairwise_cons.mpr ⟨fun b hb ↦ ?_, ih⟩
    obtain ⟨d, hd, hat⟩ := exists_reaches_of_mem_readAll _ b hb
    have hstop : name.start < name.stop :=
      Nat.lt_add_of_pos_right (List.length_pos_iff.mpr (Name.chars_ne_nil_of_at? hname))
    calc name.start
        < name.stop := hstop
      _ = (name.after (skipBlanks c)).offset := (Name.offset_after hname).symm
      _ ≤ d.offset := ((reaches_valueAfter _).trans hd).offset_le
      _ = b.name.start := (Name.at?_eq_some_iff.mp hat).1.symm

end Attribute

namespace Tag

theorem exists_reaches_of_mem_attributes {a : Attribute} (h : a ∈ attributes c) :
    ∃ d, (c.skip 1).Reaches d ∧ Name.at? d = some a.name := by
  rw [attributes] at h
  split at h
  · cases h
  · rename_i name hname
    obtain ⟨d, hd, hat⟩ := Attribute.exists_reaches_of_mem_readAll _ a h
    exact ⟨d, (Name.reaches_after hname).trans hd, hat⟩

theorem pairwise_attributes (c : Cursor) :
    (attributes c).Pairwise fun a b ↦ a.name.start < b.name.start := by
  rw [attributes]
  split
  · exact .nil
  · exact Attribute.pairwise_readAll _

theorem offset_lt_start_of_mem_attributes (hopening : c.peek? = some '<') {a : Attribute}
    (h : a ∈ attributes c) : c.offset < a.name.start := by
  obtain ⟨d, hd, hat⟩ := exists_reaches_of_mem_attributes h
  have hle := hd.offset_le
  rw [Cursor.offset_skip_one hopening] at hle
  rw [(Name.at?_eq_some_iff.mp hat).1]
  exact hle

/-- An attribute stands before every `<` behind that of its tag. -/
theorem start_lt_offset_of_mem_attributes (hc : c.IsIn text) (hopening : c.peek? = some '<')
    (hd : d.IsIn text) (hnext : d.peek? = some '<') (hlt : c.offset < d.offset) {a : Attribute}
    (h : a ∈ attributes c) : a.name.start < d.offset := by
  obtain ⟨e, he, hat⟩ := exists_reaches_of_mem_attributes h
  have hstart : a.name.start = e.offset := (Name.at?_eq_some_iff.mp hat).1
  have hein : text[e.offset]? ≠ some '<' := by
    obtain ⟨between, hrest, hoffset, -⟩ := he
    have hin : e.IsIn text := by
      have h := (hc.skip 1).step hrest
      rwa [← hoffset] at h
    rw [← Indexed.peek?_placeAt, Indexed.placeAt_offset hin]
    exact Name.peek?_ne_of_at? hat
  have hdin : text[d.offset]? = some '<' := by
    rw [← Indexed.peek?_placeAt, Indexed.placeAt_offset hd, hnext]
  rw [hstart]
  by_contra hnot
  rcases Nat.eq_or_lt_of_le (Nat.le_of_not_lt hnot) with heq | hlt'
  · exact hein (heq ▸ hdin)
  · refine he.getElem?_ne (hc.skip 1) ?_ hlt' hdin
    rw [Cursor.offset_skip_one hopening]
    exact hlt

/-! ## All attributes of a text -/

/-- The attributes of all start tags of a text, tag by tag. -/
def attributesOf (text : List Char) : List Attribute :=
  (openings text).flatMap attributes

/-- The attributes of different tags do not cross. -/
theorem pairwise_attributesOf (text : List Char) :
    (attributesOf text).Pairwise fun a b ↦ a.name.start < b.name.start := by
  rw [attributesOf, List.pairwise_flatMap]
  refine ⟨fun c _ ↦ pairwise_attributes c, ?_⟩
  refine (Indexed.pairwise_openings text).imp_of_mem fun {c d} hc hd hlt ↦ ?_
  obtain ⟨hcin, hcpeek⟩ := Indexed.mem_openings_iff.mp hc
  obtain ⟨hdin, hdpeek⟩ := Indexed.mem_openings_iff.mp hd
  intro a ha b hb
  calc a.name.start
      < d.offset := start_lt_offset_of_mem_attributes hcin hcpeek hdin hdpeek hlt ha
    _ < b.name.start := offset_lt_start_of_mem_attributes hdpeek hb

/-- The search tag by tag is one search from the end through all attributes. -/
theorem attributeBefore?_eq_find? (text : List Char) (offset : Nat) (wanted : List Char) :
    attributeBefore? text offset wanted =
      (attributesOf text).reverse.find? fun a ↦
        a.name.start ≤ offset && a.name.answersTo wanted := by
  -- The tags behind the offset have their attributes behind it too.
  have hbehind : ((Indexed.openingsAt text (Indexed.indicesBehind text offset)).flatMap
      attributes).reverse.find?
        (fun a ↦ decide (a.name.start ≤ offset) && a.name.answersTo wanted) = none := by
    rw [List.find?_eq_none]
    intro a ha
    obtain ⟨c, hc, ha⟩ := List.mem_flatMap.mp (List.mem_reverse.mp ha)
    have hopening : c.peek? = some '<' := by
      obtain ⟨i, -, hi, rfl⟩ := Indexed.mem_openingsAt_iff.mp hc
      rw [Indexed.peek?_placeAt, hi]
    have hlt := Indexed.lt_offset_of_mem_openingsAt hc
    have hlt' := offset_lt_start_of_mem_attributes hopening ha
    rw [decide_eq_false (by omega), Bool.false_and]
    exact Bool.false_ne_true
  have hbefore : (Indexed.openingsAt text (Indexed.indicesBefore text offset).reverse).reverse =
      openingsBefore text offset := by
    rw [Indexed.openingsBefore_eq, Indexed.openingsAt, Indexed.openingsAt, ← List.map_reverse,
      ← List.filter_reverse, List.reverse_reverse]
  rw [attributesOf, Indexed.openings_eq_append text offset, List.flatMap_append,
    List.reverse_append, List.find?_append, hbehind, Option.none_or, List.reverse_flatMap,
    List.find?_flatMap, hbefore]
  rfl

theorem mem_attributesOf_iff {a : Attribute} :
    a ∈ attributesOf text ↔ ∃ i, text[i]? = some '<' ∧ (text[i + 1]?).any isNameStart = true ∧
      a ∈ attributes (Indexed.placeAt text i) := by
  rw [attributesOf, Indexed.openings_eq, List.mem_flatMap]
  constructor
  · rintro ⟨c, hc, ha⟩
    obtain ⟨i, -, hopening, rfl⟩ := Indexed.mem_openingsAt_iff.mp hc
    refine ⟨i, hopening, ?_, ha⟩
    rw [← Indexed.peek?_skip_placeAt, ← Name.isSome_at?, ← startName?]
    rw [attributes] at ha
    split at ha
    · cases ha
    · rename_i name hname
      rw [hname]
      rfl
  · rintro ⟨i, hopening, -, ha⟩
    have hlt := (List.getElem?_eq_some_iff.mp hopening).1
    exact ⟨_, Indexed.mem_openingsAt_iff.mpr ⟨i, List.mem_range.mpr hlt, hopening, rfl⟩, ha⟩

end Tag

/-! ## The last attribute of a name -/

/-- From the end of a list in order, the first element with a property is the greatest one. -/
theorem find?_reverse_eq_some_iff {α : Type} {f : α → Nat} {p : α → Bool} {l : List α}
    (h : l.Pairwise fun a b ↦ f a < f b) {a : α} :
    l.reverse.find? p = some a ↔
      (a ∈ l ∧ p a = true) ∧ ∀ b ∈ l, p b = true → b = a ∨ f b < f a := by
  have hgreatest : ∀ {x : α}, l.reverse.find? p = some x →
      (x ∈ l ∧ p x = true) ∧ ∀ b ∈ l, p b = true → b = x ∨ f b < f x := by
    intro x hx
    obtain ⟨hp, before, behind, hl, hnot⟩ := List.find?_eq_some_iff_append.mp hx
    refine ⟨⟨List.mem_reverse.mp (List.mem_of_find?_eq_some hx), hp⟩, fun b hb hpb ↦ ?_⟩
    have hpairwise := List.pairwise_reverse.mpr h
    rw [hl, List.pairwise_append, List.pairwise_cons] at hpairwise
    rw [← List.mem_reverse, hl, List.mem_append, List.mem_cons] at hb
    rcases hb with hb | rfl | hb
    · have := hnot b hb
      simp [hpb] at this
    · exact Or.inl rfl
    · exact Or.inr (hpairwise.2.1.1 b hb)
  refine ⟨hgreatest, ?_⟩
  rintro ⟨⟨ha, hpa⟩, hall⟩
  cases hfind : l.reverse.find? p with
  | none =>
    exact absurd hpa (List.find?_eq_none.mp hfind a (List.mem_reverse.mpr ha))
  | some x =>
    obtain ⟨⟨hx, hpx⟩, hallx⟩ := hgreatest hfind
    rcases hall x hx hpx with rfl | hlt
    · rfl
    · rcases hallx a ha hpa with rfl | hlt'
      · rfl
      · omega

/-- An attribute that a search for a name from an offset may find. -/
structure Attribute.Qualifies (text : List Char) (offset : Nat) (wanted : List Char)
    (a : Attribute) : Prop where
  /-- It is an attribute of a start tag, wherever in the text that begins. -/
  of_tag : ∃ i, text[i]? = some '<' ∧ (text[i + 1]?).any isNameStart = true ∧
    a ∈ Tag.attributes (Indexed.placeAt text i)
  /-- Its name does not begin behind the offset. -/
  start_le : a.name.start ≤ offset
  /-- It has that name, or that name behind a colon if it has no colon of its own. -/
  name_eq : a.name.chars = wanted ∨
    (':' ∉ wanted ∧ ∃ before, a.name.chars = before ++ ':' :: wanted)

/-- These are the attributes that the search tests for. -/
theorem Attribute.qualifies_iff {offset : Nat} {wanted : List Char} {a : Attribute} :
    a.Qualifies text offset wanted ↔ a ∈ Tag.attributesOf text ∧
      (decide (a.name.start ≤ offset) && a.name.answersTo wanted) = true := by
  have hname : a.name.answersTo wanted = true ↔ a.name.chars = wanted ∨
      (':' ∉ wanted ∧ ∃ before, a.name.chars = before ++ ':' :: wanted) := by
    rw [Name.answersTo_iff]
    by_cases hcolon : ':' ∈ wanted
    · simp [hcolon]
    · rw [Text.lastField_eq_iff hcolon]
      simp [hcolon]
  rw [Bool.and_eq_true, decide_eq_true_eq, hname, Tag.mem_attributesOf_iff]
  constructor
  · rintro ⟨htag, hstart, hname⟩
    exact ⟨htag, hstart, hname⟩
  · rintro ⟨htag, hstart, hname⟩
    exact ⟨htag, hstart, hname⟩

/-- The search for an attribute finds the one whose name begins last, of all attributes of the text
that it may find, and none only if there is none. -/
theorem Tag.attributeBefore?_greatest (text : List Char) (offset : Nat) (wanted : List Char) :
    (∀ a : Attribute, attributeBefore? text offset wanted = some a ↔
      a.Qualifies text offset wanted ∧
        ∀ b : Attribute, b.Qualifies text offset wanted →
          b = a ∨ b.name.start < a.name.start) ∧
    (attributeBefore? text offset wanted = none ↔
      ∀ a : Attribute, ¬ a.Qualifies text offset wanted) := by
  rw [attributeBefore?_eq_find?]
  constructor
  · intro a
    rw [find?_reverse_eq_some_iff (pairwise_attributesOf text), ← Attribute.qualifies_iff]
    constructor
    · rintro ⟨ha, hall⟩
      refine ⟨ha, fun b hb ↦ ?_⟩
      obtain ⟨hmem, htest⟩ := Attribute.qualifies_iff.mp hb
      exact hall b hmem htest
    · rintro ⟨ha, hall⟩
      exact ⟨ha, fun b hmem htest ↦ hall b (Attribute.qualifies_iff.mpr ⟨hmem, htest⟩)⟩
  · rw [List.find?_eq_none]
    constructor
    · intro hnone a ha
      obtain ⟨hmem, htest⟩ := Attribute.qualifies_iff.mp ha
      exact hnone a (List.mem_reverse.mpr hmem) htest
    · intro hnone a hmem htest
      exact hnone a (Attribute.qualifies_iff.mpr ⟨List.mem_reverse.mp hmem, htest⟩)

/-- A `<` in a value that is not closed passes for a tag.  Its attribute is the last one, and before
that begins, the attribute of the tag around it is. -/
theorem Tag.attributeBefore?_greatest_in_open_value :
    Attribute.Qualifies "<a x='<b y x".toList 11 ['x'] ⟨⟨11, ['x']⟩, none⟩ ∧
      Attribute.Qualifies "<a x='<b y x".toList 10 ['x'] ⟨⟨3, ['x']⟩, some ⟨5, 6⟩⟩ := by
  have hlast := ((attributeBefore?_greatest "<a x='<b y x".toList 11 ['x']).1
    ⟨⟨11, ['x']⟩, none⟩).mp (by decide +kernel)
  have hfirst := ((attributeBefore?_greatest "<a x='<b y x".toList 10 ['x']).1
    ⟨⟨3, ['x']⟩, some ⟨5, 6⟩⟩).mp (by decide +kernel)
  exact ⟨hlast.1, hfirst.1⟩

end Markup

end XmlDiagnostics
