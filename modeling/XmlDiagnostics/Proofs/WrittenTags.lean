import XmlDiagnostics.Proofs.IndexedPlaces
import XmlDiagnostics.Proofs.WrittenMarkup

/-!
# Written tags are read back

An attribute that is written as an `AttributeText` is read back with its name and its value where
they were written (`AttributeText.readAll_append`), if what follows it cannot be taken for a part of
it: `EndsAttribute`.  The blanks before another attribute cannot, nor can the end of a tag, so all
attributes of a tag are read back, one behind the other (`TagText.attributes_eq`).

A name without a value is read like one with a value, up to the place from which reading goes on:
that is behind the blanks, which belong to the next attribute.
-/

namespace XmlDiagnostics.Markup

/-! ## Where things were written -/

/-- Where a value stands that is written from an offset on: from quote to quote. -/
def ValueText.spanAt (v : ValueText) (offset : Nat) : Span :=
  let start := offset + v.before.length + 1 + v.behind.length
  ⟨start, start + v.content.length + 2⟩

namespace AttributeText

/-- What an attribute that is written from an offset on consists of. -/
def readAt (a : AttributeText) (offset : Nat) : Attribute :=
  let start := offset + a.gap.length
  ⟨⟨start, a.name⟩, a.value.map (·.spanAt (start + a.name.length))⟩

/-- What attributes that are written one behind the other consist of. -/
def readEachAt (offset : Nat) : List AttributeText → List Attribute
  | [] => []
  | a :: rest => a.readAt offset :: readEachAt (offset + a.chars.length) rest

end AttributeText

namespace TagText

/-- The name of a tag whose `<` stands at an offset. -/
def nameAt (t : TagText) (offset : Nat) : Name :=
  ⟨offset + 1, t.name⟩

/-- The attributes of a tag whose `<` stands at an offset. -/
def attributesAt (t : TagText) (offset : Nat) : List Attribute :=
  AttributeText.readEachAt (t.nameAt offset).stop t.attributes

end TagText

/-- A text that does not begin with a blank. -/
def EndsBlanks (after : List Char) : Prop :=
  ∀ ch, after.head? = some ch → Text.isBlank ch = false

/-- A text that neither goes on with the name of an attribute nor gives it a value. -/
structure EndsAttribute (after : List Char) : Prop where
  /-- No character of a name comes first. -/
  endsName : EndsName after
  /-- No equals sign comes first, or behind blanks. -/
  equals_ne : (after.dropWhile Text.isBlank).head? ≠ some '='

/-- A text that closes a tag, or that begins with the slash before the end of the tag of an empty
element. -/
def ClosesTag (after : List Char) : Prop :=
  after.head? = some '>' ∨ after.head? = some '/'

variable {s after gap : List Char} {offset : Nat} {c : Cursor}

/-! ## What ends what -/

theorem endsBlanks_cons {first : Char} {rest : List Char} (h : Text.isBlank first = false) :
    EndsBlanks (first :: rest) := by
  intro ch hch
  rwa [← Option.some.inj hch]

theorem IsName.endsBlanks (h : IsName s) (after : List Char) : EndsBlanks (s ++ after) := by
  intro ch hch
  rw [Bool.eq_false_iff]
  intro hblank
  refine h.head?_ne (Bool.eq_false_iff.mpr fun hstart ↦ ?_) after hch
  have hname := isNameChar_of_isNameStart hstart
  rw [isNameChar_eq_false_of_isBlank hblank] at hname
  cases hname

theorem EndsBlanks.dropWhile_eq (h : EndsBlanks after) :
    after.dropWhile Text.isBlank = after :=
  Text.dropWhile_eq_self h

theorem ClosesTag.eq_or_eq (h : ClosesTag after) {ch : Char} (hch : after.head? = some ch) :
    ch = '>' ∨ ch = '/' := by
  rw [ClosesTag, hch] at h
  exact h.imp Option.some.inj Option.some.inj

theorem ClosesTag.endsBlanks (h : ClosesTag after) : EndsBlanks after := by
  intro ch hch
  rcases h.eq_or_eq hch with rfl | rfl
  · decide
  · decide

namespace EndsAttribute

theorem of_closesTag (h : ClosesTag after) : EndsAttribute after where
  endsName := by
    intro ch hch
    rcases h.eq_or_eq hch with rfl | rfl
    · decide
    · decide
  equals_ne := by
    rw [h.endsBlanks.dropWhile_eq]
    intro hequals
    exact absurd (h.eq_or_eq hequals) (by decide)

/-- If a text ends an attribute, blanks before it change nothing. -/
theorem append_left (h : EndsAttribute after) (hgap : ∀ ch ∈ gap, Text.isBlank ch = true) :
    EndsAttribute (gap ++ after) where
  endsName := h.endsName.append_left hgap
  equals_ne := by
    rw [List.dropWhile_append_of_pos hgap]
    exact h.equals_ne

theorem flatMap (attributes : List AttributeText) (h : EndsAttribute after) :
    EndsAttribute (attributes.flatMap AttributeText.chars ++ after) := by
  cases attributes with
  | nil => exact h
  | cons a others =>
    rw [List.flatMap_cons, AttributeText.chars, List.append_assoc, List.append_assoc,
      List.append_assoc]
    refine ⟨endsName_append_of_isBlank a.gap_ne_nil a.isBlank_gap, ?_⟩
    rw [List.dropWhile_append_of_pos a.isBlank_gap, (a.isName_name.endsBlanks _).dropWhile_eq]
    exact a.isName_name.head?_ne (by decide) _

end EndsAttribute

/-! ## Reading a value -/

theorem Cursor.skipWhile_append {p : Char → Bool} (hs : ∀ ch ∈ s, p ch = true)
    (hafter : ∀ ch, after.head? = some ch → p ch = false) (offset : Nat) :
    (⟨offset, s ++ after⟩ : Cursor).skipWhile p = ⟨offset + s.length, after⟩ := by
  have hnone : after.takeWhile p = [] ∧ after.dropWhile p = after := by
    cases after with
    | nil => exact ⟨rfl, rfl⟩
    | cons first rest =>
      have hfirst : ¬ p first = true := by simp [hafter first rfl]
      exact ⟨List.takeWhile_cons_of_neg hfirst, List.dropWhile_cons_of_neg hfirst⟩
  rw [skipWhile, List.takeWhile_append_of_pos hs, List.dropWhile_append_of_pos hs, hnone.1,
    hnone.2, List.append_nil]

namespace Attribute

theorem skipBlanks_append (hgap : ∀ ch ∈ gap, Text.isBlank ch = true)
    (hafter : EndsBlanks after) (offset : Nat) :
    skipBlanks ⟨offset, gap ++ after⟩ = ⟨offset + gap.length, after⟩ :=
  Cursor.skipWhile_append hgap hafter offset

theorem skipBlanks_skipBlanks (c : Cursor) : skipBlanks (skipBlanks c) = skipBlanks c := by
  have hrest : EndsBlanks (skipBlanks c).rest := by
    intro ch hch
    have hhead := List.head?_dropWhile_not Text.isBlank c.rest
    rw [show c.rest.dropWhile Text.isBlank = (skipBlanks c).rest from rfl, hch] at hhead
    exact hhead
  exact Cursor.skipWhile_append (s := []) nofun hrest _

/-- A value is read from quote to quote. -/
theorem valueAt_append {quote : Char} {content : List Char} (hquote : isQuote quote = true)
    (hclosing : quote ∉ content) (hopening : '<' ∉ content) (offset : Nat) (after : List Char) :
    valueAt ⟨offset, quote :: (content ++ quote :: after)⟩ =
      (some ⟨offset, offset + content.length + 2⟩, ⟨offset + content.length + 2, after⟩) := by
  have hcontent : ∀ ch ∈ content, (decide (ch ≠ quote) && decide (ch ≠ '<')) = true := by
    intro ch hch
    rw [Bool.and_eq_true, decide_eq_true_eq, decide_eq_true_eq]
    exact ⟨ne_of_mem_of_not_mem hch hclosing, ne_of_mem_of_not_mem hch hopening⟩
  have hend : valueEnd quote ⟨offset, quote :: (content ++ quote :: after)⟩ =
      ⟨offset + 1 + content.length, quote :: after⟩ := by
    refine Cursor.skipWhile_append hcontent (fun ch hch ↦ ?_) (offset + 1)
    obtain rfl : quote = ch := Option.some.inj hch
    simp
  have hafter : afterValue quote ⟨offset, quote :: (content ++ quote :: after)⟩ =
      ⟨offset + content.length + 2, after⟩ := by
    have hpeek : (⟨offset + 1 + content.length, quote :: after⟩ : Cursor).peek? = some quote := rfl
    rw [afterValue, hend, if_pos hpeek]
    refine Cursor.ext ?_ rfl
    show offset + 1 + content.length + 1 = offset + content.length + 2
    omega
  show (if isQuote quote then _ else _) = _
  rw [if_pos hquote, hafter]

/-- A text that gives an attribute no value is left to the next one, its blanks aside. -/
theorem valueAfter_of_endsAttribute (h : EndsAttribute after) (offset : Nat) :
    valueAfter ⟨offset, after⟩ = (none, skipBlanks ⟨offset, after⟩) :=
  if_neg h.equals_ne

end Attribute

theorem ValueText.isBlank_quote (v : ValueText) : Text.isBlank v.quote = false := by
  have h := v.isQuote_quote
  rw [Attribute.isQuote, Bool.or_eq_true, decide_eq_true_eq, decide_eq_true_eq] at h
  rcases h with h | h
  · rw [h]
    decide
  · rw [h]
    decide

/-- A value is read as it was written. -/
theorem ValueText.valueAfter_eq (v : ValueText) (offset : Nat) (after : List Char) :
    Attribute.valueAfter ⟨offset, v.chars ++ after⟩ =
      (some (v.spanAt offset), ⟨offset + v.chars.length, after⟩) := by
  have happend : v.chars ++ after =
      v.before ++ '=' :: (v.behind ++ v.quote :: (v.content ++ v.quote :: after)) := by
    simp [chars]
  have hlength : v.chars.length = v.before.length + 1 + v.behind.length + v.content.length + 2 := by
    simp only [chars, List.length_append, List.length_cons, List.length_nil]
    omega
  have hbefore : Attribute.skipBlanks ⟨offset, v.chars ++ after⟩ = ⟨offset + v.before.length,
      '=' :: (v.behind ++ v.quote :: (v.content ++ v.quote :: after))⟩ := by
    rw [happend]
    exact Attribute.skipBlanks_append v.isBlank_before (endsBlanks_cons (by decide)) offset
  have hequals : (Attribute.skipBlanks ⟨offset, v.chars ++ after⟩).peek? = some '=' := by
    rw [hbefore]
    rfl
  have hbehind : Attribute.skipBlanks ((Attribute.skipBlanks ⟨offset, v.chars ++ after⟩).skip 1) =
      ⟨offset + v.before.length + 1 + v.behind.length,
        v.quote :: (v.content ++ v.quote :: after)⟩ := by
    rw [hbefore]
    exact Attribute.skipBlanks_append v.isBlank_behind (endsBlanks_cons v.isBlank_quote)
      (offset + v.before.length + 1)
  rw [Attribute.valueAfter, if_pos hequals, hbehind,
    Attribute.valueAt_append v.isQuote_quote v.quote_not_mem v.opening_not_mem, hlength, spanAt]
  refine Prod.ext rfl (Cursor.ext ?_ rfl)
  show offset + v.before.length + 1 + v.behind.length + v.content.length + 2 = offset + _
  omega

/-! ## Reading attributes -/

namespace Attribute

/-- Where a name begins behind the blanks, an attribute is read, and the others behind it. -/
theorem readAll_of_at? {name : Name} (h : Name.at? (skipBlanks c) = some name) :
    readAll c = ⟨name, (valueAfter (name.after (skipBlanks c))).1⟩ ::
      readAll (valueAfter (name.after (skipBlanks c))).2 := by
  rw [readAll]
  split
  · rename_i hnone
    rw [h] at hnone
    cases hnone
  · rename_i name' hname
    obtain rfl : name = name' := Option.some.inj (h.symm.trans hname)
    rfl

/-- Where no name begins, reading ends. -/
theorem readAll_of_at?_eq_none (h : Name.at? (skipBlanks c) = none) : readAll c = [] := by
  rw [readAll]
  split
  · rfl
  · rename_i name hname
    rw [h] at hname
    cases hname

/-- Whether blanks are skipped before does not matter. -/
theorem readAll_skipBlanks (c : Cursor) : readAll (skipBlanks c) = readAll c := by
  cases h : Name.at? (skipBlanks c) with
  | none =>
    rw [readAll_of_at?_eq_none h, readAll_of_at?_eq_none]
    rw [skipBlanks_skipBlanks, h]
  | some name =>
    have h' : Name.at? (skipBlanks (skipBlanks c)) = some name := by
      rw [skipBlanks_skipBlanks, h]
    rw [readAll_of_at? h, readAll_of_at? h', skipBlanks_skipBlanks]

theorem readAll_of_closesTag (hgap : ∀ ch ∈ gap, Text.isBlank ch = true) (h : ClosesTag after)
    (offset : Nat) : readAll ⟨offset, gap ++ after⟩ = [] := by
  refine readAll_of_at?_eq_none ?_
  rw [skipBlanks_append hgap h.endsBlanks, Option.eq_none_iff_forall_ne_some]
  intro name hname
  obtain ⟨-, hchars, rest, -, hrest⟩ := Name.at?_eq_some_iff.mp hname
  have hrest : name.chars ++ rest = after := hrest
  rw [← hrest] at h
  rcases h with h | h
  · exact hchars.head?_ne (by decide) rest h
  · exact hchars.head?_ne (by decide) rest h

end Attribute

/-- An attribute is read as it was written, and then what follows it. -/
theorem AttributeText.readAll_append (a : AttributeText) (h : EndsAttribute after) (offset : Nat) :
    Attribute.readAll ⟨offset, a.chars ++ after⟩ =
      a.readAt offset :: Attribute.readAll ⟨offset + a.chars.length, after⟩ := by
  have hname : ∀ (rest : List Char), EndsName rest →
      Attribute.readAll ⟨offset, a.gap ++ (a.name ++ rest)⟩ =
        ⟨⟨offset + a.gap.length, a.name⟩,
          (Attribute.valueAfter ⟨offset + a.gap.length + a.name.length, rest⟩).1⟩ ::
        Attribute.readAll
          (Attribute.valueAfter ⟨offset + a.gap.length + a.name.length, rest⟩).2 := by
    intro rest hrest
    have hskip := Attribute.skipBlanks_append a.isBlank_gap
      (a.isName_name.endsBlanks rest) offset
    have hat := Name.at?_append a.isName_name hrest (offset + a.gap.length)
    have hstop := Name.after_append ⟨offset + a.gap.length, a.name⟩ (offset + a.gap.length) rest
    rw [Attribute.readAll_of_at? (by rw [hskip, hat]), hskip, hstop]
  cases hvalue : a.value with
  | none =>
    have happend : a.chars ++ after = a.gap ++ (a.name ++ after) := by
      simp [chars, hvalue]
    have hlength : a.chars.length = a.gap.length + a.name.length := by
      simp [chars, hvalue]
    rw [happend, hname after h.endsName, Attribute.valueAfter_of_endsAttribute h,
      Attribute.readAll_skipBlanks, readAt, hvalue, hlength, Nat.add_assoc offset]
    rfl
  | some v =>
    have happend : a.chars ++ after = a.gap ++ (a.name ++ (v.chars ++ after)) := by
      simp [chars, hvalue]
    have hlength : a.chars.length = a.gap.length + a.name.length + v.chars.length := by
      simp [chars, hvalue, Nat.add_assoc]
    have hends : EndsName (v.chars ++ after) := by
      rw [ValueText.chars, List.append_assoc]
      exact (endsName_cons (by decide)).append_left v.isBlank_before
    rw [happend, hname _ hends, v.valueAfter_eq, readAt, hvalue, hlength]
    simp only [Option.map_some, Nat.add_assoc]

/-- Several attributes are read as they were written. -/
theorem AttributeText.readAll_flatMap (attributes : List AttributeText) (h : EndsAttribute after)
    (offset : Nat) :
    Attribute.readAll ⟨offset, attributes.flatMap chars ++ after⟩ =
      readEachAt offset attributes ++
        Attribute.readAll ⟨offset + (attributes.flatMap chars).length, after⟩ := by
  induction attributes generalizing offset with
  | nil => rfl
  | cons a others ih =>
    rw [List.flatMap_cons, List.append_assoc,
      a.readAll_append (EndsAttribute.flatMap others h), ih, readEachAt, List.length_append,
      Nat.add_assoc, List.cons_append]

namespace TagText

variable (t : TagText)

/-- All attributes of a tag are read as they were written. -/
theorem attributes_eq (h : ClosesTag after) (offset : Nat) :
    Tag.attributes ⟨offset, '<' :: (t.chars ++ after)⟩ = t.attributesAt offset := by
  have hends : EndsAttribute (t.gap ++ after) :=
    (EndsAttribute.of_closesTag h).append_left t.isBlank_gap
  have hname := t.startName?_eq offset (EndsAttribute.of_closesTag h).endsName
  have hskip : (⟨offset, '<' :: (t.chars ++ after)⟩ : Cursor).skip 1 =
      ⟨offset + 1, t.name ++ (t.attributes.flatMap AttributeText.chars ++ (t.gap ++ after))⟩ := by
    refine Cursor.ext rfl ?_
    show t.chars ++ after = _
    simp [chars, tail]
  have hstop := Name.after_append ⟨offset + 1, t.name⟩ (offset + 1)
    (t.attributes.flatMap AttributeText.chars ++ (t.gap ++ after))
  rw [Tag.attributes, hname]
  dsimp only
  rw [hskip, hstop, AttributeText.readAll_flatMap _ hends,
    Attribute.readAll_of_closesTag t.isBlank_gap h, List.append_nil]
  rfl

end TagText

end XmlDiagnostics.Markup
