import XmlDiagnostics.Markup.Tag

/-!
# Written markup

The searches read markup, and here it is written: names, attributes and tags as texts, each with
what makes it one.  The readers are then described on what was written, whatever follows it:
`Name.at?_append` for names, and for tags `TagText.startName?_eq`, `TagText.isEmptyElement_start`
and `TagText.isEmptyElement_empty`.

A reader stops where a character cannot go on with what it reads.  That this happens at the right
place rests on the classes of characters, which keep apart: no blank stands in a name, and neither
does an angle bracket, a slash, an equals sign or a quote.
-/

namespace XmlDiagnostics.Markup

/-! ## Classes of characters -/

theorem isNameChar_eq_false_of_isBlank {c : Char} (h : Text.isBlank c = true) :
    isNameChar c = false := by
  obtain ⟨r, hr, hlow, hhigh⟩ := Text.Ranges.exists_of_contains h
  -- The ranges of blanks are short, so their characters can be looked up one by one.
  have hblanks : ∀ r ∈ Text.blankRanges, ∀ n ∈ List.range' r.1 (r.2 + 1 - r.1),
      isNameChar (Char.ofNat n) = false := by decide +kernel
  have hmem : c.toNat ∈ List.range' r.1 (r.2 + 1 - r.1) := by
    rw [List.mem_range'_1]
    omega
  have hchar := hblanks r hr c.toNat hmem
  rwa [Char.ofNat_toNat] at hchar

theorem not_mem_of_isBlank {gap : List Char} (hgap : ∀ c ∈ gap, Text.isBlank c = true) {c : Char}
    (hc : Text.isBlank c = false) : c ∉ gap := by
  intro hmem
  rw [hgap c hmem] at hc
  cases hc

/-! ## Places -/

section Openings

variable (offset : Nat) (s t after : List Char)

/-- The places where a `<` stands in a text that begins at an offset and goes on with `after`. -/
def Tag.openingsIn (offset : Nat) (after : List Char) : List Char → List Cursor
  | [] => []
  | c :: rest =>
    if c = '<' then ⟨offset, c :: rest ++ after⟩ :: openingsIn (offset + 1) after rest
    else openingsIn (offset + 1) after rest

theorem Tag.openingsIn_append :
    openingsIn offset after (s ++ t) =
      openingsIn offset (t ++ after) s ++ openingsIn (offset + s.length) after t := by
  induction s generalizing offset with
  | nil => rfl
  | cons c rest ih =>
    have hoffset : offset + 1 + rest.length = offset + (c :: rest).length := by
      rw [List.length_cons]
      omega
    rw [List.cons_append, openingsIn, openingsIn, ih, hoffset]
    split
    · rw [List.cons_append, List.append_assoc]
      rfl
    · rfl

theorem Tag.openings_eq : openings s = openingsIn 0 [] s := by
  have hfrom : ∀ offset, (Cursor.placesFrom offset s).filter (fun c ↦ c.peek? = some '<') =
      openingsIn offset [] s := by
    induction s with
    | nil => exact fun _ ↦ rfl
    | cons c rest ih =>
      intro offset
      rw [Cursor.placesFrom, List.filter_cons, ih, openingsIn, List.append_nil]
      simp [Cursor.peek?]
  exact hfrom 0

variable {offset s after}

/-- A text without a `<` has no such places. -/
theorem Tag.openingsIn_of_not_mem (h : '<' ∉ s) : openingsIn offset after s = [] := by
  induction s generalizing offset with
  | nil => rfl
  | cons c rest ih =>
    obtain ⟨hc, hrest⟩ := not_or.mp (mt List.mem_cons.mpr h)
    rw [openingsIn, if_neg (Ne.symm hc), ih hrest]

/-- A text with a `<` at its beginning and nowhere else has one such place. -/
theorem Tag.openingsIn_cons_of_not_mem (h : '<' ∉ s) :
    openingsIn offset after ('<' :: s) = [⟨offset, '<' :: s ++ after⟩] := by
  rw [openingsIn, if_pos rfl, openingsIn_of_not_mem h]

/-- Where the places of a text are. -/
theorem Tag.bounds_of_mem_openingsIn {c : Cursor} (h : c ∈ openingsIn offset after s) :
    offset ≤ c.offset ∧ s[c.offset - offset]? = some '<' := by
  induction s generalizing offset with
  | nil => cases h
  | cons first rest ih =>
    have hrest : c ∈ openingsIn (offset + 1) after rest →
        offset ≤ c.offset ∧ (first :: rest)[c.offset - offset]? = some '<' := by
      intro hmem
      obtain ⟨hle, hget⟩ := ih hmem
      rw [show c.offset - offset = c.offset - (offset + 1) + 1 by omega]
      exact ⟨by omega, hget⟩
    rw [openingsIn] at h
    split at h
    · rename_i hfirst
      rcases List.mem_cons.mp h with rfl | h
      · exact ⟨Nat.le_refl _, by simp [hfirst]⟩
      · exact hrest h
    · exact hrest h

/-- The places at or before an offset, if it is known which of them is the last. -/
theorem Tag.openingsBefore_of_last {before rest : List Char} (hlow : before.length ≤ offset)
    (hnext : ∀ i, before.length < i → i ≤ offset → (before ++ '<' :: rest)[i]? ≠ some '<') :
    openingsBefore (before ++ '<' :: rest) offset =
      ⟨before.length, '<' :: rest⟩ :: (openingsIn 0 ('<' :: rest) before).reverse := by
  have hbefore : ∀ c ∈ openingsIn 0 ('<' :: rest) before, decide (c.offset ≤ offset) = true := by
    intro c hc
    obtain ⟨-, hget⟩ := bounds_of_mem_openingsIn hc
    have hlt : c.offset - 0 < before.length := (List.getElem?_eq_some_iff.mp hget).1
    rw [decide_eq_true_eq]
    omega
  have hbehind : (openingsIn (before.length + 1) [] rest).takeWhile
      (fun c ↦ decide (c.offset ≤ offset)) = [] := by
    cases hplaces : openingsIn (before.length + 1) [] rest with
    | nil => rfl
    | cons c others =>
      refine List.takeWhile_cons_of_neg fun hle ↦ ?_
      obtain ⟨hlt, hget⟩ := bounds_of_mem_openingsIn (by rw [hplaces]; exact List.mem_cons_self)
      refine hnext c.offset hlt (by simpa using hle) ?_
      rw [List.getElem?_append_right (by omega), ← hget,
        show c.offset - before.length = c.offset - (before.length + 1) + 1 by omega,
        List.getElem?_cons_succ]
  rw [openingsBefore, openings_eq, openingsIn_append, Nat.zero_add, openingsIn, if_pos rfl,
    List.append_nil, List.takeWhile_append_of_pos hbefore,
    List.takeWhile_cons_of_pos (by simpa using hlow), hbehind, List.reverse_append]
  rfl

/-- From an offset inside a stretch that has a `<` only at its beginning, that is the last one. -/
theorem Tag.openingsBefore_inside {before inner : List Char} (h : '<' ∉ inner) (after : List Char)
    (hlow : before.length ≤ offset) (hhigh : offset < before.length + (inner.length + 1)) :
    openingsBefore (before ++ '<' :: (inner ++ after)) offset =
      ⟨before.length, '<' :: (inner ++ after)⟩ ::
        (openingsIn 0 ('<' :: (inner ++ after)) before).reverse := by
  refine openingsBefore_of_last hlow fun i hlt hle hget ↦ ?_
  -- Behind that `<` the index is one of the characters of the stretch.
  obtain ⟨n, rfl⟩ := Nat.exists_eq_add_of_lt hlt
  rw [List.getElem?_append_right (by omega),
    show before.length + n + 1 - before.length = n + 1 by omega, List.getElem?_cons_succ,
    List.getElem?_append_left (by omega)] at hget
  exact h (List.mem_of_getElem? hget)

end Openings

theorem Cursor.skip_append (offset : Nat) (s t : List Char) :
    (⟨offset, s ++ t⟩ : Cursor).skip s.length = ⟨offset + s.length, t⟩ := by
  rw [skip, List.take_left, List.drop_left]

theorem Cursor.rest_skip_length {c : Cursor} (s : List Char) {t : List Char}
    (h : c.rest = s ++ t) : (c.skip s.length).rest = t := by
  rw [skip, h, List.drop_left]

/-! ## Names -/

/-- Characters that are a name. -/
def IsName : List Char → Prop
  | [] => False
  | first :: rest => isNameStart first = true ∧ ∀ c ∈ rest, isNameChar c = true

-- The characters of a name are looked at one by one, not all characters that there are.
instance : DecidablePred IsName
  | [] => instDecidableFalse
  | first :: rest =>
    @instDecidableAnd (isNameStart first = true) (∀ c ∈ rest, isNameChar c = true)
      (instDecidableEqBool _ _) (List.decidableBAll _ rest)

/-- A text after which a name cannot go on. -/
def EndsName (after : List Char) : Prop :=
  ∀ c, after.head? = some c → isNameChar c = false

variable {s after : List Char}

theorem IsName.isNameChar (h : IsName s) : ∀ c ∈ s, isNameChar c = true := by
  cases s with
  | nil => cases h
  | cons first rest =>
    intro c hc
    rcases List.mem_cons.mp hc with rfl | hc
    · exact isNameChar_of_isNameStart h.1
    · exact h.2 c hc

theorem IsName.not_mem (h : IsName s) {c : Char} (hc : Markup.isNameChar c = false) : c ∉ s := by
  intro hmem
  rw [h.isNameChar c hmem] at hc
  cases hc

theorem IsName.head?_ne (h : IsName s) {c : Char} (hc : isNameStart c = false)
    (after : List Char) : (s ++ after).head? ≠ some c := by
  cases s with
  | nil => cases h
  | cons first rest =>
    intro hhead
    have hfirst := h.1
    rw [Option.some.inj hhead, hc] at hfirst
    cases hfirst

theorem IsName.any_head?_append (h : IsName s) (after : List Char) :
    (s ++ after).head?.any isNameStart = true := by
  cases s with
  | nil => cases h
  | cons first rest => exact h.1

theorem Name.at?_append (h : IsName s) (hafter : EndsName after) (offset : Nat) :
    Name.at? ⟨offset, s ++ after⟩ = some ⟨offset, s⟩ := by
  cases s with
  | nil => cases h
  | cons first rest =>
    have htake : (rest ++ after).takeWhile isNameChar = rest := by
      rw [List.takeWhile_append_of_pos h.2]
      cases after with
      | nil => rw [List.takeWhile_nil, List.append_nil]
      | cons c others => rw [List.takeWhile_cons_of_neg (by simp [hafter c rfl]), List.append_nil]
    rw [List.cons_append, at?]
    dsimp only
    rw [if_pos h.1, htake]

/-- A name is read where one stands, and only there, as far as it goes. -/
theorem Name.at?_eq_some_iff {c : Cursor} {n : Name} :
    Name.at? c = some n ↔
      n.start = c.offset ∧ IsName n.chars ∧
        ∃ after, EndsName after ∧ n.chars ++ after = c.rest := by
  constructor
  · intro h
    obtain ⟨offset, rest⟩ := c
    cases rest with
    | nil => cases h
    | cons first rest =>
      rw [at?] at h
      dsimp only at h
      split at h
      · rename_i hfirst
        cases h
        refine ⟨rfl, ⟨hfirst, fun c hc ↦ ?_⟩, rest.dropWhile isNameChar, fun c hc ↦ ?_, ?_⟩
        · exact List.all_eq_true.mp List.all_takeWhile c hc
        · simpa [hc] using List.head?_dropWhile_not isNameChar rest
        · rw [List.cons_append, List.takeWhile_append_dropWhile]
      · cases h
  · rintro ⟨hstart, hname, after, hafter, hrest⟩
    have hc : c = ⟨c.offset, n.chars ++ after⟩ := Cursor.ext rfl hrest.symm
    rw [hc, Name.at?_append hname hafter, ← hstart]

theorem Name.after_append (n : Name) (offset : Nat) (after : List Char) :
    n.after ⟨offset, n.chars ++ after⟩ = ⟨offset + n.chars.length, after⟩ :=
  Cursor.skip_append offset n.chars after

/-- Whether a name answers to another one depends on its characters alone. -/
theorem Name.answersTo_congr {name name' : Name} (h : name.chars = name'.chars)
    (wanted : List Char) : name.answersTo wanted = name'.answersTo wanted := by
  rw [answersTo, answersTo, h]

theorem Name.answersTo_iff {name : Name} {wanted : List Char} :
    name.answersTo wanted = true ↔
      name.chars = wanted ∨ (':' ∉ wanted ∧ Text.lastField ':' name.chars = wanted) := by
  simp [answersTo]

/-! ## Tags -/

/-- The value of an attribute as it is written, from the equals sign on. -/
structure ValueText where
  /-- The blanks before the equals sign. -/
  before : List Char
  /-- The blanks behind the equals sign. -/
  behind : List Char
  /-- The character before and behind the content. -/
  quote : Char
  /-- The content. -/
  content : List Char
  isBlank_before : ∀ c ∈ before, Text.isBlank c = true
  isBlank_behind : ∀ c ∈ behind, Text.isBlank c = true
  isQuote_quote : Attribute.isQuote quote = true
  quote_not_mem : quote ∉ content
  opening_not_mem : '<' ∉ content

/-- An attribute as it is written. -/
structure AttributeText where
  /-- The blanks before the name. -/
  gap : List Char
  /-- The name. -/
  name : List Char
  /-- The value, if there is one. -/
  value : Option ValueText
  gap_ne_nil : gap ≠ []
  isBlank_gap : ∀ c ∈ gap, Text.isBlank c = true
  isName_name : IsName name

/-- What is written between the angle brackets of a start tag, or before the slash at the end of
the tag of an empty element. -/
structure TagText where
  /-- The name of the element. -/
  name : List Char
  /-- The attributes. -/
  attributes : List AttributeText
  /-- The blanks at the end. -/
  gap : List Char
  isName_name : IsName name
  isBlank_gap : ∀ c ∈ gap, Text.isBlank c = true

/-- The characters of a value. -/
def ValueText.chars (v : ValueText) : List Char :=
  v.before ++ '=' :: (v.behind ++ v.quote :: (v.content ++ [v.quote]))

/-- The characters of an attribute. -/
def AttributeText.chars (a : AttributeText) : List Char :=
  a.gap ++ (a.name ++ a.value.elim [] ValueText.chars)

namespace TagText

/-- The characters behind the name. -/
def tail (t : TagText) : List Char :=
  t.attributes.flatMap AttributeText.chars ++ t.gap

/-- The characters of a tag. -/
def chars (t : TagText) : List Char :=
  t.name ++ t.tail

/-- The start tag. -/
def start (t : TagText) : List Char :=
  '<' :: (t.chars ++ ['>'])

/-- The tag of an empty element. -/
def empty (t : TagText) : List Char :=
  '<' :: (t.chars ++ ['/', '>'])

/-- A tag without a `>` in the values of its attributes. -/
def IsPlain (t : TagText) : Prop :=
  ∀ a ∈ t.attributes, ∀ v, a.value = some v → '>' ∉ v.content

/-- The tag that consists of a name. -/
def bare (name : List Char) (h : IsName name) : TagText where
  name := name
  attributes := []
  gap := []
  isName_name := h
  isBlank_gap _ hc := nomatch hc

theorem isPlain_bare {name : List Char} (h : IsName name) : (bare name h).IsPlain :=
  fun _ ha ↦ nomatch ha

end TagText

/-- The end tag of a name. -/
def endTag (name gap : List Char) : List Char :=
  '<' :: '/' :: (name ++ (gap ++ ['>']))

/-! ### What stands in a tag -/

/-- The characters that tags are made of, the content of values aside. -/
def IsTagChar (c : Char) : Prop :=
  isNameChar c = true ∨ Text.isBlank c = true ∨ c = '=' ∨ Attribute.isQuote c = true

instance : DecidablePred IsTagChar := fun _ ↦ inferInstanceAs (Decidable (_ ∨ _ ∨ _ ∨ _))

theorem ValueText.quote_ne (v : ValueText) {c : Char} (hc : Attribute.isQuote c = false) :
    v.quote ≠ c := by
  rintro rfl
  rw [v.isQuote_quote] at hc
  cases hc

theorem ValueText.mem_chars {v : ValueText} {c : Char} (h : c ∈ v.chars) :
    IsTagChar c ∨ c ∈ v.content := by
  rw [chars, List.mem_append, List.mem_cons, List.mem_append, List.mem_cons, List.mem_append,
    List.mem_singleton] at h
  rcases h with h | rfl | h | rfl | h | rfl
  · exact Or.inl (Or.inr (Or.inl (v.isBlank_before c h)))
  · exact Or.inl (Or.inr (Or.inr (Or.inl rfl)))
  · exact Or.inl (Or.inr (Or.inl (v.isBlank_behind c h)))
  · exact Or.inl (Or.inr (Or.inr (Or.inr v.isQuote_quote)))
  · exact Or.inr h
  · exact Or.inl (Or.inr (Or.inr (Or.inr v.isQuote_quote)))

theorem AttributeText.mem_chars {a : AttributeText} {c : Char} (h : c ∈ a.chars) :
    IsTagChar c ∨ ∃ v, a.value = some v ∧ c ∈ v.content := by
  rw [chars, List.mem_append, List.mem_append] at h
  rcases h with h | h | h
  · exact Or.inl (Or.inr (Or.inl (a.isBlank_gap c h)))
  · exact Or.inl (Or.inl (a.isName_name.isNameChar c h))
  · cases hvalue : a.value with
    | none =>
      rw [hvalue] at h
      cases h
    | some v =>
      rw [hvalue] at h
      exact (ValueText.mem_chars h).imp_right fun hc ↦ ⟨v, rfl, hc⟩

namespace TagText

variable {t : TagText}

/-- Every character of a tag that is not of its kind stands in a value. -/
theorem mem_chars {c : Char} (h : c ∈ t.chars) (hc : ¬ IsTagChar c) :
    ∃ a ∈ t.attributes, ∃ v, a.value = some v ∧ c ∈ v.content := by
  rw [chars, tail, List.mem_append, List.mem_append, List.mem_flatMap] at h
  rcases h with h | ⟨a, ha, h⟩ | h
  · exact absurd (Or.inl (t.isName_name.isNameChar c h)) hc
  · exact ⟨a, ha, (AttributeText.mem_chars h).resolve_left hc⟩
  · exact absurd (Or.inr (Or.inl (t.isBlank_gap c h))) hc

/-- No tag begins inside a tag. -/
theorem opening_not_mem_chars : '<' ∉ t.chars := by
  intro h
  obtain ⟨a, -, v, -, hv⟩ := mem_chars h (by decide)
  exact v.opening_not_mem hv

/-- No tag ends inside a plain tag. -/
theorem IsPlain.closing_not_mem_chars (hplain : t.IsPlain) : '>' ∉ t.chars := by
  intro h
  obtain ⟨a, ha, v, hvalue, hv⟩ := mem_chars h (by decide)
  exact hplain a ha v hvalue hv

end TagText

theorem opening_not_mem_endTag {name gap : List Char} (hname : IsName name)
    (hgap : ∀ c ∈ gap, Text.isBlank c = true) : '<' ∉ '/' :: (name ++ (gap ++ ['>'])) := by
  have hname' : '<' ∉ name := hname.not_mem (by decide)
  have hgap' : '<' ∉ gap := not_mem_of_isBlank hgap (by decide)
  simp [hname', hgap']

/-! ### Where a tag ends -/

/-- The last character of a text is not a slash. -/
def EndsWithoutSlash (s : List Char) : Prop :=
  ∃ before last, s = before ++ [last] ∧ last ≠ '/'

theorem EndsWithoutSlash.append_left {s : List Char} (h : EndsWithoutSlash s) (r : List Char) :
    EndsWithoutSlash (r ++ s) := by
  obtain ⟨before, last, rfl, hlast⟩ := h
  exact ⟨r ++ before, last, (List.append_assoc ..).symm, hlast⟩

theorem endsWithoutSlash_of_not_mem {s : List Char} (hne : s ≠ []) (h : '/' ∉ s) :
    EndsWithoutSlash s := by
  obtain ⟨before, last, rfl⟩ := (List.eq_nil_or_concat s).resolve_left hne
  rw [List.concat_eq_append] at h ⊢
  refine ⟨before, last, rfl, ?_⟩
  rintro rfl
  exact h (List.mem_append_right _ (List.mem_singleton_self _))

theorem IsName.endsWithoutSlash {s : List Char} (h : IsName s) : EndsWithoutSlash s := by
  refine endsWithoutSlash_of_not_mem ?_ (h.not_mem (by decide))
  rintro rfl
  exact h

theorem AttributeText.endsWithoutSlash (a : AttributeText) : EndsWithoutSlash a.chars := by
  refine EndsWithoutSlash.append_left ?_ _
  cases a.value with
  | none => simpa using a.isName_name.endsWithoutSlash
  | some v =>
    refine EndsWithoutSlash.append_left ⟨v.before ++ '=' :: (v.behind ++ v.quote :: v.content),
      v.quote, ?_, v.quote_ne (by decide)⟩ _
    simp [ValueText.chars]

namespace TagText

variable (t : TagText)

/-- A tag does not end with a slash of its own. -/
theorem endsWithoutSlash : EndsWithoutSlash t.chars := by
  rw [chars, tail]
  rcases List.eq_nil_or_concat t.gap with hgap | ⟨gap, last, hgap⟩
  · rw [hgap, List.append_nil]
    rcases List.eq_nil_or_concat t.attributes with hattributes | ⟨others, a, hattributes⟩
    · rw [hattributes, List.flatMap_nil, List.append_nil]
      exact t.isName_name.endsWithoutSlash
    · rw [hattributes, List.concat_eq_append, List.flatMap_append, List.flatMap_singleton]
      exact (a.endsWithoutSlash.append_left _).append_left _
  · refine (EndsWithoutSlash.append_left ?_ _).append_left _
    exact endsWithoutSlash_of_not_mem (by rw [hgap]; simp)
      (not_mem_of_isBlank t.isBlank_gap (by decide))

end TagText

/-! ### What the readers find -/

theorem endsName_cons {c : Char} {rest : List Char} (h : isNameChar c = false) :
    EndsName (c :: rest) := by
  intro d hd
  rwa [← Option.some.inj hd]

/-- Blanks end a name. -/
theorem endsName_append_of_isBlank {gap after : List Char} (hne : gap ≠ [])
    (hgap : ∀ c ∈ gap, Text.isBlank c = true) : EndsName (gap ++ after) := by
  obtain ⟨c, rest, rfl⟩ := List.exists_cons_of_ne_nil hne
  exact endsName_cons (isNameChar_eq_false_of_isBlank (hgap c List.mem_cons_self))

/-- If a text ends a name, blanks before it change nothing. -/
theorem EndsName.append_left {gap after : List Char} (h : EndsName after)
    (hgap : ∀ c ∈ gap, Text.isBlank c = true) : EndsName (gap ++ after) := by
  by_cases hne : gap = []
  · rwa [hne, List.nil_append]
  · exact endsName_append_of_isBlank hne hgap

namespace Tag

variable {name after : List Char} (offset : Nat)

theorem isEndTag_slash (rest : List Char) : isEndTag ⟨offset, '<' :: '/' :: rest⟩ = true := rfl

theorem endName?_eq (h : IsName name) (hafter : EndsName after) :
    endName? ⟨offset, '<' :: '/' :: (name ++ after)⟩ = some ⟨offset + 2, name⟩ :=
  Name.at?_append h hafter (offset + 2)

theorem startName?_eq (h : IsName name) (hafter : EndsName after) :
    startName? ⟨offset, '<' :: (name ++ after)⟩ = some ⟨offset + 1, name⟩ :=
  Name.at?_append h hafter (offset + 1)

theorem isEndTag_eq_false (h : IsName name) :
    isEndTag ⟨offset, '<' :: (name ++ after)⟩ = false :=
  decide_eq_false (h.head?_ne (by decide) after)

/-- Before an angle bracket only the last character counts. -/
theorem closesWithSlash_append {before : List Char} {last : Char} (previous : Char)
    (h : ∀ c ∈ before ++ [last], c ≠ '<' ∧ c ≠ '>') (rest : List Char) :
    closesWithSlash previous (before ++ [last] ++ rest) = closesWithSlash last rest := by
  induction before generalizing previous with
  | nil =>
    obtain ⟨hopening, hclosing⟩ := h last (List.mem_singleton_self _)
    rw [List.nil_append, List.singleton_append, closesWithSlash, if_neg hclosing,
      if_neg hopening]
  | cons c before ih =>
    obtain ⟨hopening, hclosing⟩ := h c List.mem_cons_self
    rw [List.cons_append, List.cons_append, closesWithSlash, if_neg hclosing, if_neg hopening]
    exact ih c fun d hd ↦ h d (List.mem_cons_of_mem _ hd)

/-! ### What the searches find in an end tag -/

section EndTag

variable {name gap before after : List Char} {offset : Nat}

/-- What is read as the name of an end tag is its name, also if blanks follow. -/
theorem endName?_endTag (hname : IsName name) (hgap : ∀ c ∈ gap, Text.isBlank c = true)
    (offset : Nat) (after : List Char) :
    endName? ⟨offset, endTag name gap ++ after⟩ = some ⟨offset + 2, name⟩ := by
  have hafter : EndsName (gap ++ '>' :: after) := (endsName_cons (by decide)).append_left hgap
  have happend : endTag name gap ++ after = '<' :: '/' :: (name ++ (gap ++ '>' :: after)) := by
    simp [endTag]
  rw [happend, endName?_eq offset hname hafter]

/-- From an offset inside an end tag, a search begins with it. -/
theorem openingsBefore_endTag (hname : IsName name) (hgap : ∀ c ∈ gap, Text.isBlank c = true)
    (after : List Char) (hlow : before.length ≤ offset)
    (hhigh : offset < before.length + (endTag name gap).length) :
    openingsBefore (before ++ (endTag name gap ++ after)) offset =
      ⟨before.length, endTag name gap ++ after⟩ ::
        (openingsIn 0 (endTag name gap ++ after) before).reverse :=
  openingsBefore_inside (opening_not_mem_endTag hname hgap) after hlow hhigh

/-- From an offset inside an end tag, the search for the nearest one finds it. -/
theorem endTagBefore?_endTag (hname : IsName name) (hgap : ∀ c ∈ gap, Text.isBlank c = true)
    (after : List Char) (hlow : before.length ≤ offset)
    (hhigh : offset < before.length + (endTag name gap).length) :
    endTagBefore? (before ++ (endTag name gap ++ after)) offset =
      some ⟨before.length, endTag name gap ++ after⟩ := by
  rw [endTagBefore?, openingsBefore_endTag hname hgap after hlow hhigh]
  exact List.find?_cons_of_pos (isEndTag_slash _ _)

end EndTag

end Tag

namespace TagText

variable {t : TagText} {after : List Char} (offset : Nat)

/-- Behind the name of a tag the name cannot go on. -/
theorem endsName_tail (hafter : EndsName after) : EndsName (t.tail ++ after) := by
  rw [tail]
  cases t.attributes with
  | nil =>
    rw [List.flatMap_nil, List.nil_append]
    exact hafter.append_left t.isBlank_gap
  | cons a others =>
    rw [List.flatMap_cons, AttributeText.chars, List.append_assoc, List.append_assoc,
      List.append_assoc]
    exact endsName_append_of_isBlank a.gap_ne_nil a.isBlank_gap

theorem startName?_eq (hafter : EndsName after) :
    Tag.startName? ⟨offset, '<' :: (t.chars ++ after)⟩ = some ⟨offset + 1, t.name⟩ := by
  rw [chars, List.append_assoc]
  exact Tag.startName?_eq offset t.isName_name (endsName_tail hafter)

theorem isEndTag_eq_false : Tag.isEndTag ⟨offset, '<' :: (t.chars ++ after)⟩ = false := by
  rw [chars, List.append_assoc]
  exact Tag.isEndTag_eq_false offset t.isName_name

/-- Whether a plain tag is the tag of an empty element is seen behind its last character. -/
theorem IsPlain.isEmptyElement_eq (hplain : t.IsPlain) : ∃ last, last ≠ '/' ∧
    ∀ after, Tag.isEmptyElement ⟨offset, '<' :: (t.chars ++ after)⟩ =
      Tag.closesWithSlash last after := by
  obtain ⟨before, last, hchars, hlast⟩ := t.endsWithoutSlash
  refine ⟨last, hlast, fun after ↦ ?_⟩
  have hbracket : ∀ c ∈ before ++ [last], c ≠ '<' ∧ c ≠ '>' := by
    rw [← hchars]
    exact fun c hc ↦ ⟨ne_of_mem_of_not_mem hc opening_not_mem_chars,
      ne_of_mem_of_not_mem hc hplain.closing_not_mem_chars⟩
  rw [hchars]
  exact Tag.closesWithSlash_append '<' hbracket after

theorem IsPlain.isEmptyElement_start (hplain : t.IsPlain) :
    Tag.isEmptyElement ⟨offset, t.start ++ after⟩ = false := by
  obtain ⟨last, hlast, hempty⟩ := hplain.isEmptyElement_eq offset
  have happend : t.start ++ after = '<' :: (t.chars ++ '>' :: after) := by simp [start]
  rw [happend, hempty, Tag.closesWithSlash, if_pos rfl]
  simpa using hlast

theorem IsPlain.isEmptyElement_empty (hplain : t.IsPlain) :
    Tag.isEmptyElement ⟨offset, t.empty ++ after⟩ = true := by
  obtain ⟨last, -, hempty⟩ := hplain.isEmptyElement_eq offset
  have happend : t.empty ++ after = '<' :: (t.chars ++ '/' :: '>' :: after) := by simp [empty]
  rw [happend, hempty]
  rfl

end TagText

end XmlDiagnostics.Markup
