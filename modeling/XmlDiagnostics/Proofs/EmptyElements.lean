import XmlDiagnostics.Proofs.TagErrors

/-!
# Tags of empty elements

Whether a tag is the tag of an empty element is seen at the next angle bracket behind its `<`.  That
is the `>` that closes the tag, unless one stands in the value of an attribute, which is allowed.
Then the first of these is taken for the end of the tag, and the character before it decides,
however the tag is closed (`TagText.Writes.isEmptyElement_iff`).

The search for an open element goes by this.  It takes a tag for one that opens an element or for
one that opens none (`OpenElement.Takes`), and a wrong answer is carried on: a tag of an empty
element that is taken for a start tag uses up the end tag of an element around it, or is found in
the place of that element.
-/

namespace XmlDiagnostics

namespace Markup

/-! ## The first `>` in the values -/

/-- What a value has before the first `>` in it, if there is one. -/
def ValueText.beforeClosing? (v : ValueText) : Option (List Char) :=
  (Text.cutAt? ['>'] v.content).map (·.1)

namespace TagText

/-- What the first value with a `>` has before that, if one of the values has one. -/
def beforeClosing? (t : TagText) : Option (List Char) :=
  t.attributes.findSome? fun a ↦ a.value.bind (·.beforeClosing?)

/-- A tag can be told from its first `>`: if that stands in a value, it stands behind a slash just
if the tag is written as that of an empty element. -/
def ClosingTells (t : TagText) (tag : List Char) : Prop :=
  ∀ head, t.beforeClosing? = some head → (head.getLast? = some '/' ↔ tag = t.empty)

end TagText

theorem ValueText.beforeClosing?_cases (v : ValueText) :
    ('>' ∉ v.content ∧ v.beforeClosing? = none) ∨ ∃ head rest, v.content = head ++ '>' :: rest ∧
      '>' ∉ head ∧ v.beforeClosing? = some head := by
  by_cases h : '>' ∈ v.content
  · obtain ⟨head, rest, hcontent, hnot⟩ := List.eq_append_cons_of_mem h
    have hcut : Text.cutAt? ['>'] v.content = some (head, rest) := by
      rw [hcontent]
      exact Text.cutAt?_append hnot rest
    exact Or.inr ⟨head, rest, hcontent, hnot, by rw [beforeClosing?, hcut, Option.map_some]⟩
  · exact Or.inl ⟨h, by rw [beforeClosing?, Text.cutAt?_eq_none h, Option.map_none]⟩

theorem ValueText.beforeClosing?_eq_none_iff {v : ValueText} :
    v.beforeClosing? = none ↔ '>' ∉ v.content := by
  rcases v.beforeClosing?_cases with ⟨hnot, hnone⟩ | ⟨head, rest, hcontent, -, hsome⟩
  · exact iff_of_true hnone hnot
  · refine iff_of_false (by simp [hsome]) (not_not_intro ?_)
    rw [hcontent]
    exact List.mem_append_right head List.mem_cons_self

/-- What stands before the first `>`, and that it is the first one. -/
theorem ValueText.exists_content_of_beforeClosing? {v : ValueText} {head : List Char}
    (h : v.beforeClosing? = some head) :
    ∃ rest, v.content = head ++ '>' :: rest ∧ '>' ∉ head := by
  rcases v.beforeClosing?_cases with ⟨-, hnone⟩ | ⟨head', rest, hcontent, hnot, hsome⟩
  · rw [hnone] at h
    cases h
  · obtain rfl : head' = head := Option.some.inj (hsome.symm.trans h)
    exact ⟨rest, hcontent, hnot⟩

namespace TagText

variable {t : TagText} {head : List Char}

/-- A plain tag has no `>` in its values. -/
theorem beforeClosing?_eq_none_iff : t.beforeClosing? = none ↔ t.IsPlain := by
  rw [beforeClosing?, List.findSome?_eq_none_iff]
  refine forall₂_congr fun a _ ↦ ?_
  rw [Option.bind_eq_none_iff]
  exact forall₂_congr fun v _ ↦ ValueText.beforeClosing?_eq_none_iff

/-- The first `>` of a plain tag tells what the tag is. -/
theorem IsPlain.closingTells (hplain : t.IsPlain) (tag : List Char) : t.ClosingTells tag := by
  intro head hhead
  rw [beforeClosing?_eq_none_iff.mpr hplain] at hhead
  cases hhead

/-- If there is a `>` in a value, what stands before the first one counts. -/
theorem closingTells_iff (h : t.beforeClosing? = some head) (tag : List Char) :
    t.ClosingTells tag ↔ (head.getLast? = some '/' ↔ tag = t.empty) := by
  constructor
  · intro htells
    exact htells head h
  · intro hiff head' h'
    obtain rfl : head = head' := Option.some.inj (h.symm.trans h')
    exact hiff

/-- The first `>` of a tag stands in a value, so there is a quote before it, and then what the value
has before it. -/
theorem exists_chars_of_beforeClosing? (h : t.beforeClosing? = some head) :
    ∃ before quote rest, t.chars = before ++ quote :: head ++ '>' :: rest ∧ quote ≠ '/' ∧
      '>' ∉ before ++ quote :: head := by
  obtain ⟨earlier, a, later, hattributes, hvalue, hearlier⟩ := List.findSome?_eq_some_iff.mp h
  obtain ⟨v, hv, hhead⟩ := Option.bind_eq_some_iff.mp hvalue
  obtain ⟨rest, hcontent, hnot⟩ := ValueText.exists_content_of_beforeClosing? hhead
  -- The tag with only the attributes before that one is plain.
  let short : TagText := { t with attributes := earlier, gap := [], isBlank_gap := nofun }
  have hshort : '>' ∉ short.chars :=
    IsPlain.closing_not_mem_chars (beforeClosing?_eq_none_iff.mp
      (List.findSome?_eq_none_iff.mpr hearlier))
  refine ⟨short.chars ++ a.gap ++ a.name ++ v.before ++ '=' :: v.behind, v.quote,
    rest ++ v.quote :: (later.flatMap AttributeText.chars ++ t.gap), ?_, v.quote_ne (by decide), ?_⟩
  · simp [short, chars, tail, hattributes, AttributeText.chars, hv, ValueText.chars, hcontent]
  · have hname : '>' ∉ a.name := a.isName_name.not_mem (by decide)
    have hblank : ∀ {gap : List Char}, (∀ c ∈ gap, Text.isBlank c = true) → '>' ∉ gap :=
      fun hgap ↦ not_mem_of_isBlank hgap (by decide)
    have hquote : '>' ≠ v.quote := (v.quote_ne (by decide)).symm
    simp [hshort, hblank a.isBlank_gap, hname, hblank v.isBlank_before, hblank v.isBlank_behind,
      hquote, hnot]

end TagText

/-! ## What decides -/

theorem Tag.closesWithSlash_closing {s : List Char} (hne : s ≠ [])
    (h : ∀ c ∈ s, c ≠ '<' ∧ c ≠ '>') (previous : Char) (rest : List Char) :
    closesWithSlash previous (s ++ '>' :: rest) = decide (s.getLast? = some '/') := by
  obtain ⟨before, last, rfl⟩ := (List.eq_nil_or_concat s).resolve_left hne
  rw [List.concat_eq_append] at h ⊢
  rw [closesWithSlash_append previous h, closesWithSlash, if_pos rfl, List.getLast?_concat]
  simp

namespace TagText

variable {t : TagText} {tag head : List Char}

/-- If there is a `>` in a value, the first one decides what the tag is taken for. -/
theorem isEmptyElement_of_beforeClosing? (h : t.beforeClosing? = some head) (offset : Nat)
    (after : List Char) : Tag.isEmptyElement ⟨offset, '<' :: (t.chars ++ after)⟩ =
      decide (head.getLast? = some '/') := by
  obtain ⟨before, quote, rest, hchars, hquote, hclosing⟩ := exists_chars_of_beforeClosing? h
  have hbracket : ∀ c ∈ before ++ quote :: head, c ≠ '<' ∧ c ≠ '>' := by
    intro c hc
    have hmem : c ∈ t.chars := hchars ▸ List.mem_append_left _ hc
    exact ⟨ne_of_mem_of_not_mem hmem opening_not_mem_chars, ne_of_mem_of_not_mem hc hclosing⟩
  -- A quote is no slash, so a slash before the `>` belongs to the value.
  have hlast : (before ++ quote :: head).getLast? = some '/' ↔ head.getLast? = some '/' := by
    rw [List.getLast?_append_cons, List.getLast?_cons]
    cases head.getLast? with
    | none => simp [hquote]
    | some last => rfl
  have hread := Tag.closesWithSlash_closing (by simp) hbracket '<' (rest ++ after)
  rw [← List.cons_append, ← List.append_assoc, ← hchars] at hread
  exact hread.trans (decide_eq_decide.mpr hlast)

namespace Writes

theorem eq_start_iff (h : t.Writes tag) : tag = t.start ↔ tag ≠ t.empty := by
  have hne : t.start ≠ t.empty := by
    intro heq
    have hlength := congrArg List.length heq
    simp [start, empty] at hlength
  rcases h with rfl | rfl
  · exact iff_of_true rfl hne
  · exact iff_of_false hne.symm (not_not_intro rfl)

/-- A written tag is taken for the tag of an empty element just if its first `>` has a slash before
it, which is the `>` that closes the tag only if there is none in a value. -/
theorem isEmptyElement_iff (h : t.Writes tag) (offset : Nat) (after : List Char) :
    Tag.isEmptyElement ⟨offset, tag ++ after⟩ = true ↔
      match t.beforeClosing? with
      | none => tag = t.empty
      | some head => head.getLast? = some '/' := by
  cases hclosing : t.beforeClosing? with
  | none =>
    have hplain := beforeClosing?_eq_none_iff.mp hclosing
    rcases h with rfl | rfl
    · refine iff_of_false ?_ ((eq_start_iff (Or.inl rfl)).mp rfl)
      rw [hplain.isEmptyElement_start]
      exact Bool.false_ne_true
    · exact iff_of_true (hplain.isEmptyElement_empty offset) rfl
  | some head =>
    obtain ⟨close, rfl, -, -⟩ := h.exists_closesTag
    rw [List.cons_append, List.append_assoc, isEmptyElement_of_beforeClosing? hclosing,
      decide_eq_true_eq]

/-- A written tag is taken for what it is just if it can be told from its first `>`. -/
theorem isEmptyElement_iff_closingTells (h : t.Writes tag) (offset : Nat) (after : List Char) :
    (Tag.isEmptyElement ⟨offset, tag ++ after⟩ = true ↔ tag = t.empty) ↔ t.ClosingTells tag := by
  rw [h.isEmptyElement_iff]
  cases hclosing : t.beforeClosing? with
  | none => exact iff_of_true Iff.rfl ((beforeClosing?_eq_none_iff.mp hclosing).closingTells tag)
  | some head => exact (closingTells_iff hclosing tag).symm

end Writes

end TagText

/-! ## What the search for an open element makes of it -/

/-- How the search for an open element takes the place of a `<`, whenever it is for a name to which
`name` answers.  What opens an element is found, or makes up for one of the end tags that have been
counted; what opens none is passed over. -/
def OpenElement.Takes (opening : Cursor) (name : Name) (opens : Bool) : Prop :=
  ∀ wanted, name.answersTo wanted = true → ∀ closed earlier,
    search wanted closed (opening :: earlier) =
      match opens, closed with
      | true, 0 => some name
      | true, closed + 1 => search wanted closed earlier
      | false, closed => search wanted closed earlier

theorem OpenElement.Takes.unique {opening : Cursor} {name : Name} {opens opens' : Bool}
    (h : Takes opening name opens) (h' : Takes opening name opens') : opens = opens' := by
  have hself : name.answersTo name.chars = true := Name.answersTo_iff.mpr (Or.inl rfl)
  -- With nothing before the place, the name is found or not.
  have heq := (h name.chars hself 0 []).symm.trans (h' name.chars hself 0 [])
  cases opens with
  | true =>
    cases opens' with
    | true => rfl
    | false => cases heq
  | false =>
    cases opens' with
    | true => cases heq
    | false => rfl

namespace TagText.Writes

variable {t : TagText} {tag before after wanted : List Char} {offset : Nat}

/-- The search takes a written tag for one that opens an element unless it is taken for that of an
empty element. -/
theorem takes (h : t.Writes tag) (offset : Nat) (after : List Char) :
    OpenElement.Takes ⟨offset, tag ++ after⟩ (t.nameAt offset)
      (!Tag.isEmptyElement ⟨offset, tag ++ after⟩) := by
  intro wanted hanswers closed earlier
  rw [OpenElement.search, h.isEndTag_eq_false, if_neg Bool.false_ne_true, h.startName?_eq]
  dsimp only
  rw [hanswers]
  cases Tag.isEmptyElement ⟨offset, tag ++ after⟩ with
  | true => rfl
  | false =>
    cases closed with
    | zero => rfl
    | succ closed => rfl

/-- The search takes a written tag for what it is just if `Tag.isEmptyElement` does. -/
theorem takes_iff (h : t.Writes tag) (offset : Nat) (after : List Char) :
    OpenElement.Takes ⟨offset, tag ++ after⟩ (t.nameAt offset) (decide (tag = t.start)) ↔
      (Tag.isEmptyElement ⟨offset, tag ++ after⟩ = true ↔ tag = t.empty) := by
  have htakes := h.takes offset after
  have hwritten : (decide (tag = t.start) = !Tag.isEmptyElement ⟨offset, tag ++ after⟩) ↔
      (Tag.isEmptyElement ⟨offset, tag ++ after⟩ = true ↔ tag = t.empty) := by
    rw [Bool.eq_iff_iff, decide_eq_true_eq, h.eq_start_iff, Bool.not_eq_true', ← Bool.not_eq_true,
      not_iff_not]
    exact iff_comm
  rw [← hwritten]
  constructor
  · intro h'
    exact h'.unique htakes
  · intro heq
    rwa [heq]

/-- From an offset inside the tag the search finds it, unless it is taken for that of an empty
element. -/
theorem nameBefore?_eq_some_iff (h : t.Writes tag) (hlow : before.length ≤ offset)
    (hhigh : offset < before.length + tag.length)
    (hanswers : (t.nameAt before.length).answersTo wanted = true) :
    OpenElement.nameBefore? (before ++ (tag ++ after)) offset wanted =
        some (t.nameAt before.length) ↔
      Tag.isEmptyElement ⟨before.length, tag ++ after⟩ = false := by
  have htakes := h.takes before.length after wanted hanswers 0
    (Tag.openingsIn 0 (tag ++ after) before).reverse
  rw [OpenElement.nameBefore?, h.openingsBefore_eq after hlow hhigh, Indexed.placeAt_append, htakes]
  cases Tag.isEmptyElement ⟨before.length, tag ++ after⟩ with
  | false => exact iff_of_true rfl rfl
  | true =>
    refine iff_of_false (fun hfound ↦ ?_) Bool.true_eq_false.mp
    -- All other names that can be found stand before the tag.
    obtain ⟨c, hc, hname⟩ := OpenElement.exists_startName?_of_search hfound
    obtain ⟨-, hget⟩ := Tag.bounds_of_mem_openingsIn (List.mem_reverse.mp hc)
    have hlt : c.offset - 0 < before.length := (List.getElem?_eq_some_iff.mp hget).1
    have hstart : before.length + 1 = c.offset + (c.rest.take 1).length :=
      (Name.at?_eq_some hname).1
    have hle : (c.rest.take 1).length ≤ 1 := List.length_take_le 1 c.rest
    omega

end TagText.Writes

namespace OpenElement

/-- **A tag is recognised just if its first `>` tells what it is.**  Take any text with a tag that
is written in it.  The tag is taken for that of an empty element just if it is one; the search for
an open element takes it for one that opens an element just if it does; from an offset inside the
tag the search finds its name just if it does.  Each of these is so just if the first `>` of the tag
tells, which it does if no value has a `>`. -/
theorem takes_as_written_iff {t : TagText} {tag : List Char} (h : t.Writes tag)
    (before after : List Char) :
    let text := before ++ (tag ++ after)
    let opening := Indexed.placeAt text before.length
    let name := t.nameAt before.length
    ((Tag.isEmptyElement opening = true ↔ tag = t.empty) ↔ t.ClosingTells tag) ∧
      (Takes opening name (decide (tag = t.start)) ↔ t.ClosingTells tag) ∧
      (∀ wanted offset, name.answersTo wanted = true → before.length ≤ offset →
        offset < before.length + tag.length →
        ((nameBefore? text offset wanted = some name ↔ tag = t.start) ↔ t.ClosingTells tag)) ∧
      (t.IsPlain → t.ClosingTells tag) := by
  intro text opening name
  have hopening : opening = ⟨before.length, tag ++ after⟩ := Indexed.placeAt_append ..
  have htells := h.isEmptyElement_iff_closingTells before.length after
  rw [← hopening] at htells
  refine ⟨htells, ?_, fun wanted offset hanswers hlow hhigh ↦ ?_, fun hplain ↦
    hplain.closingTells tag⟩
  · rw [← htells, hopening]
    exact h.takes_iff before.length after
  · rw [h.nameBefore?_eq_some_iff hlow hhigh hanswers, ← hopening, ← htells, h.eq_start_iff,
      ← Bool.not_eq_true, not_iff_not]

/-- In the start tag the first `>` stands behind a `1`, so the slash before the second one makes no
difference.  In the tag of the empty element it stands behind a slash. -/
theorem takes_as_written_behind_closing_in_value :
    let text := "<x:a b='1>2' c='/>'><a d='/>'/></b>".toList
    Tag.isEmptyElement (Indexed.placeAt text 0) = false ∧
      nameBefore? text 19 ['a'] = some ⟨1, ['x', ':', 'a']⟩ ∧
      Tag.isEmptyElement (Indexed.placeAt text 20) = true ∧
      nameBefore? text 30 ['a'] ≠ some ⟨21, ['a']⟩ := by
  intro text
  have hempty : ∀ ch ∈ ([] : List Char), Text.isBlank ch = true := nofun
  have hspace : ∀ ch ∈ [' '], Text.isBlank ch = true := List.forall_mem_singleton.mpr rfl
  have ha : IsName ['a'] := by decide +kernel
  have hxa : IsName ['x', ':', 'a'] := by decide +kernel
  have hb : IsName ['b'] := by decide +kernel
  have hc : IsName ['c'] := by decide +kernel
  have hd : IsName ['d'] := by decide +kernel
  let between : ValueText :=
    ⟨[], [], '\'', ['1', '>', '2'], hempty, hempty, rfl, by decide, by decide⟩
  let behind : ValueText := ⟨[], [], '\'', ['/', '>'], hempty, hempty, rfl, by decide, by decide⟩
  let outer : TagText := ⟨['x', ':', 'a'], [⟨[' '], ['b'], some between, by simp, hspace, hb⟩,
    ⟨[' '], ['c'], some behind, by simp, hspace, hc⟩], [], hxa, hempty⟩
  let inner : TagText :=
    ⟨['a'], [⟨[' '], ['d'], some behind, by simp, hspace, hd⟩], [], ha, hempty⟩
  have hstart : outer.start ≠ outer.empty := (TagText.Writes.eq_start_iff (Or.inl rfl)).mp rfl
  have hslash : inner.empty ≠ inner.start :=
    fun heq ↦ (TagText.Writes.eq_start_iff (Or.inr rfl)).mp heq rfl
  have houter : outer.ClosingTells outer.start :=
    (TagText.closingTells_iff (show outer.beforeClosing? = some ['1'] from rfl) _).mpr
      (iff_of_false (by decide) hstart)
  have hinner : inner.ClosingTells inner.empty :=
    (TagText.closingTells_iff (show inner.beforeClosing? = some ['/'] from rfl) _).mpr
      (iff_of_true rfl rfl)
  obtain ⟨hfirst, -, hopen, -⟩ :=
    takes_as_written_iff (Or.inl rfl : outer.Writes outer.start) [] "<a d='/>'/></b>".toList
  obtain ⟨hsecond, -, hnone, -⟩ :=
    takes_as_written_iff (Or.inr rfl : inner.Writes inner.empty) outer.start "</b>".toList
  refine ⟨Bool.eq_false_iff.mpr (mt (hfirst.mpr houter).mp hstart), ?_,
    (hsecond.mpr hinner).mpr rfl, ?_⟩
  · have hanswers : (outer.nameAt 0).answersTo ['a'] = true :=
      Name.answersTo_iff.mpr (Or.inr ⟨by decide, rfl⟩)
    exact ((hopen ['a'] 19 hanswers (Nat.zero_le 19) (show 19 < 0 + 20 by decide)).mpr
      houter).mpr rfl
  · have hanswers : (inner.nameAt 20).answersTo ['a'] = true :=
      Name.answersTo_iff.mpr (Or.inl rfl)
    exact mt ((hnone ['a'] 30 hanswers (show 20 ≤ 30 by decide)
      (show 30 < 20 + 11 by decide)).mpr hinner).mp hslash

end OpenElement

end Markup

namespace Family

open Markup

/-- The tag of an empty element with a `>` in a value is shown as the element whose end tag is
missing. -/
theorem shows_empty_element_behind_closing_in_value :
    let before := "<a>".toList
    let document : Document := .ofString "<a><a b='>'/></b>"
    ∃ t : TagText, t.name = ['a'] ∧ document.chars = before ++ (t.empty ++ "</b>".toList) ∧
      ¬ Tag.isEmptyElement (Indexed.placeAt document.chars before.length) = true ∧
      Event.Location.errorOffset? ⟨17, 1, 17⟩ = some 16 ∧
      ¬ ∃ range, document.positionAt 1 = .ok range.start ∧
        document.positionAt 2 = .ok range.stop ∧
        xml.resolve? document ⟨17, 1, 17⟩ "ETagRequired" [.str "a"] = some range := by
  intro before document
  have hempty : ∀ ch ∈ ([] : List Char), Text.isBlank ch = true := nofun
  have hspace : ∀ ch ∈ [' '], Text.isBlank ch = true := List.forall_mem_singleton.mpr rfl
  have ha : IsName ['a'] := by decide +kernel
  have hb : IsName ['b'] := by decide +kernel
  let value : ValueText := ⟨[], [], '\'', ['>'], hempty, hempty, rfl, by decide, by decide⟩
  let t : TagText := ⟨['a'], [⟨[' '], ['b'], some value, by simp, hspace, hb⟩], [], ha, hempty⟩
  have hshown : xml.resolve? document ⟨17, 1, 17⟩ "ETagRequired" [.str "a"] =
      some ⟨⟨0, 4⟩, ⟨0, 5⟩⟩ := by decide +kernel
  have houter : document.positionAt 1 = .ok ⟨0, 1⟩ := by decide +kernel
  exact ⟨t, rfl, rfl, by decide +kernel, rfl,
    not_exists_range_of_resolve? hshown houter (by decide)⟩

end Family

end XmlDiagnostics
