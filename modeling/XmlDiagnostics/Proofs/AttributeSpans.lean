import XmlDiagnostics.Proofs.AttributeOrder
import XmlDiagnostics.Proofs.IndexedReading

/-!
# Where attributes stand

The attributes that are read from an index of a text stand one behind the other and do not overlap,
and all of them stand before the next `<`, however broken the text is
(`Tag.attributes_in_order`).

Reading goes on from different places: behind a name without a value, behind an equals sign that no
quote follows, behind a closed value, or where a value that is not closed stops.
`Attribute.valueAfter_cases` says what these have in common, and it is all that the induction over
the attributes needs: the place is behind the attribute, and no `<` has been passed over.
-/

namespace XmlDiagnostics.Markup

/-! ## What stands in a stretch -/

/-- The characters of a stretch of a text. -/
def Span.charsIn (text : List Char) (s : Span) : List Char :=
  (text.drop s.start).take (s.stop - s.start)

/-- A stretch of a text is the value of an attribute, with its quotes. -/
inductive Span.IsValue (text : List Char) (s : Span) : Prop
  /-- The value ends with the quote that it begins with, and that does not occur in between. -/
  | closed (quote : Char) (inner : List Char) : quote = '"' ∨ quote = '\'' →
      quote ∉ inner → '<' ∉ inner → s.charsIn text = quote :: inner ++ [quote] → s.IsValue text
  /-- The quote that the value begins with does not occur again.  The value goes on to the next `<`,
  or to the end of the text. -/
  | unclosed (quote : Char) (inner : List Char) : quote = '"' ∨ quote = '\'' →
      quote ∉ inner → '<' ∉ inner → s.charsIn text = quote :: inner →
      (text[s.stop]? = some '<' ∨ s.stop = text.length) → s.IsValue text

variable {text : List Char} {c : Cursor}

theorem Span.charsIn_eq (hc : c.IsIn text) {chars rest : List Char} (h : chars ++ rest = c.rest) :
    Span.charsIn text ⟨c.offset, c.offset + chars.length⟩ = chars := by
  show (text.drop c.offset).take (c.offset + chars.length - c.offset) = chars
  rw [← hc.2, ← h, Nat.add_sub_cancel_left, List.take_left]

namespace Attribute

theorem isQuote_iff {quote : Char} : isQuote quote = true ↔ quote = '"' ∨ quote = '\'' := by
  simp [isQuote]

/-- The characters behind the opening quote of a value have neither that quote nor a `<`, and one of
the two follows them, or nothing. -/
theorem exists_inner {quote : Char} (h : c.peek? = some quote) :
    ∃ inner, quote :: inner ++ (valueEnd quote c).rest = c.rest ∧
      (valueEnd quote c).offset = c.offset + (quote :: inner).length ∧
      quote ∉ inner ∧ '<' ∉ inner ∧
      ((valueEnd quote c).peek? = some quote ∨ (valueEnd quote c).peek? = some '<' ∨
        (valueEnd quote c).peek? = none) := by
  obtain ⟨offset, rest⟩ := c
  cases rest with
  | nil => cases h
  | cons first rest =>
    cases h
    have hpassed := List.all_eq_true.mp
      (List.all_takeWhile (l := rest) (p := fun ch ↦ ch ≠ quote && ch ≠ '<'))
    refine ⟨rest.takeWhile fun ch ↦ ch ≠ quote && ch ≠ '<', ?_, ?_, ?_, ?_, ?_⟩
    · exact congrArg (quote :: ·) List.takeWhile_append_dropWhile
    · show offset + 1 + (rest.takeWhile fun ch ↦ ch ≠ quote && ch ≠ '<').length = offset + (_ + 1)
      rw [Nat.add_assoc, Nat.add_comm 1]
    · intro hmem
      simpa using hpassed quote hmem
    · intro hmem
      simpa using hpassed '<' hmem
    · have hstop := List.head?_dropWhile_not (fun ch ↦ ch ≠ quote && ch ≠ '<') rest
      show (rest.dropWhile _).head? = _ ∨ (rest.dropWhile _).head? = _ ∨
        (rest.dropWhile _).head? = _
      cases hhead : (rest.dropWhile fun ch ↦ ch ≠ quote && ch ≠ '<').head? with
      | none => exact Or.inr (Or.inr rfl)
      | some ch =>
        rw [hhead] at hstop
        by_cases hquote : ch = quote
        · exact Or.inl (congrArg some hquote)
        · have hopening : ch = '<' := by simpa [hquote] using hstop
          exact Or.inr (Or.inl (congrArg some hopening))

theorem isValue_afterValue (hc : c.IsIn text) {quote : Char} (hquote : isQuote quote = true)
    (h : c.peek? = some quote) : Span.IsValue text ⟨c.offset, (afterValue quote c).offset⟩ := by
  obtain ⟨inner, hrest, hoffset, hnot, hnot', hnext⟩ := exists_inner h
  have hend : (valueEnd quote c).IsIn text := (hc.skip 1).skipWhile _
  rw [afterValue]
  split
  · rename_i hclosed
    obtain ⟨behind, hbehind⟩ : ∃ behind, (valueEnd quote c).rest = quote :: behind := by
      rw [Cursor.peek?] at hclosed
      exact List.head?_eq_some_iff.mp hclosed
    have hchars : (quote :: inner ++ [quote]) ++ behind = c.rest := by
      rw [List.append_assoc, List.singleton_append, ← hbehind, hrest]
    have hstop : ((valueEnd quote c).skip 1).offset =
        c.offset + (quote :: inner ++ [quote]).length := by
      rw [Cursor.offset_skip_one hclosed, hoffset, List.length_append, List.length_singleton,
        Nat.add_assoc]
    rw [hstop]
    exact .closed quote inner (isQuote_iff.mp hquote) hnot hnot' (Span.charsIn_eq hc hchars)
  · rename_i hopen
    have hstop : text[(valueEnd quote c).offset]? = some '<' ∨
        (valueEnd quote c).offset = text.length := by
      rcases hnext with hclosed | hopening | hnone
      · exact absurd hclosed hopen
      · exact Or.inl ((Indexed.getElem?_offset hend).trans hopening)
      · have hlength := Indexed.getD_length_eq_offset hend
        rw [hnone] at hlength
        exact Or.inr hlength.symm
    refine .unclosed quote inner (isQuote_iff.mp hquote) hnot hnot' ?_ hstop
    rw [hoffset]
    exact Span.charsIn_eq hc hrest

/-- What follows a name: no value, or one behind the name, and then reading goes on where the value
ends. -/
theorem valueAfter_cases (hc : c.IsIn text) :
    (valueAfter c).1 = none ∨ ∃ s, (valueAfter c).1 = some s ∧ c.offset < s.start ∧
      s.start < s.stop ∧ s.IsValue text ∧ s.stop = (valueAfter c).2.offset := by
  rw [valueAfter]
  split
  · rename_i hequals
    have hblanks := (reaches_skipBlanks c).offset_le
    have hsign := Cursor.offset_skip_one hequals
    have hblanks' := (reaches_skipBlanks ((skipBlanks c).skip 1)).offset_le
    have hin := isIn_skipBlanks ((isIn_skipBlanks hc).skip 1)
    rw [valueAt]
    split
    · exact Or.inl rfl
    · rename_i quote hpeek
      split
      · rename_i hquote
        refine Or.inr ⟨_, rfl, ?_, offset_lt_afterValue hpeek, isValue_afterValue hin hquote hpeek,
          rfl⟩
        show c.offset < (skipBlanks ((skipBlanks c).skip 1)).offset
        omega
      · exact Or.inl rfl
  · exact Or.inl rfl

/-! ## Attributes in order -/

/-- The offset after the last character of an attribute. -/
def stop (a : Attribute) : Nat :=
  (a.value.map (·.stop)).getD a.name.stop

/-- The parts of an attribute stand in a text as they have to. -/
structure Stands (text : List Char) (a : Attribute) : Prop where
  /-- The name is not empty. -/
  name : a.name.start < a.name.stop
  /-- The value, if there is one, is behind the name and not empty, and it begins and ends as a
  value does. -/
  value : ∀ s, a.value = some s → a.name.stop < s.start ∧ s.start < s.stop ∧ s.IsValue text

/-- A name and what follows it make an attribute that ends where reading goes on, or before. -/
theorem stands_of_at? (hc : c.IsIn text) {name : Name} (h : Name.at? c = some name) :
    Stands text ⟨name, (valueAfter (name.after c)).1⟩ ∧
      stop ⟨name, (valueAfter (name.after c)).1⟩ ≤ (valueAfter (name.after c)).2.offset := by
  have hafter : (name.after c).IsIn text := hc.skip _
  have hname : name.start < name.stop := (Name.isIn_span hc h).start_lt
  have hoffset : (name.after c).offset = name.stop := Name.offset_after h
  rcases valueAfter_cases hafter with hnone | ⟨s, hsome, hstart, hlt, hvalue, hstop⟩
  · rw [stop, hnone]
    refine ⟨⟨hname, fun s hs ↦ nomatch hs⟩, ?_⟩
    show name.stop ≤ _
    rw [← hoffset]
    exact (reaches_valueAfter _).offset_le
  · rw [stop, hsome]
    refine ⟨⟨hname, fun s' hs ↦ ?_⟩, Nat.le_of_eq hstop⟩
    cases hs
    exact ⟨hoffset ▸ hstart, hlt, hvalue⟩

/-- No `<` before a place that is reached stands at or behind the place from which it is reached. -/
theorem le_of_reaches {d : Cursor} (hc : c.IsIn text) (h : c.Reaches d) {i : Nat}
    (hle : c.offset ≤ i) (hopening : text[i]? = some '<') : d.offset ≤ i := by
  by_contra hlt
  exact h.getElem?_ne hc hle (Nat.lt_of_not_le hlt) hopening

/-- The attributes that are read from a place stand behind it, before the next `<`, and one behind
the other. -/
theorem readAll_in_order (hc : c.IsIn text) :
    (readAll c).Pairwise (fun a b ↦ a.stop ≤ b.name.start) ∧
      ∀ a ∈ readAll c, a.Stands text ∧ c.offset ≤ a.name.start ∧ a.stop ≤ text.length ∧
        ∀ i, c.offset ≤ i → text[i]? = some '<' → a.stop ≤ i := by
  fun_induction readAll c with
  | case1 c hnone => exact ⟨.nil, fun a ha ↦ (List.not_mem_nil ha).elim⟩
  | case2 c name hname hlt ih =>
    have hblanks := isIn_skipBlanks hc
    have hnext := (isIn_valueAfter (hblanks.skip name.chars.length)).2
    obtain ⟨hpairwise, hothers⟩ := ih hnext
    obtain ⟨hstands, hstop⟩ := stands_of_at? hblanks hname
    -- Reading goes on at a place that no `<` separates from here, so that a `<` behind here is also
    -- behind that place.
    have hreaches := ((reaches_skipBlanks c).trans (Name.reaches_after hname)).trans
      (reaches_valueAfter (name.after (skipBlanks c)))
    refine ⟨List.pairwise_cons.mpr ⟨fun b hb ↦ ?_, hpairwise⟩, fun a ha ↦ ?_⟩
    · exact Nat.le_trans hstop (hothers b hb).2.1
    · rcases List.mem_cons.mp ha with rfl | ha
      · refine ⟨hstands, ?_, Nat.le_trans hstop hnext.1, fun i hi hopening ↦ ?_⟩
        · show c.offset ≤ name.start
          rw [(Name.at?_eq_some hname).1]
          exact (reaches_skipBlanks c).offset_le
        · exact Nat.le_trans hstop (le_of_reaches hc hreaches hi hopening)
      · obtain ⟨hstands', hle, hlength, hbefore⟩ := hothers a ha
        refine ⟨hstands', Nat.le_trans hreaches.offset_le hle, hlength, fun i hi hopening ↦ ?_⟩
        exact hbefore i (le_of_reaches hc hreaches hi hopening) hopening

end Attribute

/-! ## From any index -/

namespace Tag

theorem startName?_placeAt_of_le {i : Nat} (h : text.length ≤ i) :
    startName? (Indexed.placeAt text i) = none := by
  rw [startName?, Indexed.placeAt, List.drop_eq_nil_of_le h]
  rfl

/-- Reading attributes by index comes to its end without a fault, whatever stands at the index and
whether there is one. -/
theorem indexed_attributes_eq (text : List Char) (i : Nat) :
    Indexed.attributes text i =
      pure ((attributes (Indexed.placeAt text i)).map Indexed.stretches) := by
  rcases Nat.lt_or_ge i text.length with hlt | hge
  · obtain ⟨c, ch, hc, rfl, hpeek⟩ := Indexed.exists_place hlt
    rw [Indexed.placeAt_offset hc]
    exact Indexed.attributes_eq hc hpeek
  · have hnone : text[i + 1]? = none := List.getElem?_eq_none (Nat.le_succ_of_le hge)
    rw [Indexed.attributes, Indexed.nameAt?, hnone, attributes, startName?_placeAt_of_le hge]
    rfl

/-- **The attributes of a tag stand in order.**  Take any text and any index, as that of the `<`
of a tag.  Reading the attributes by index comes to its end, and gives the attributes here.  Each
of them ends at or before the next one, and all of them stand behind the name of the tag and
before the next `<`, in the text.  A value is quoted; it ends with its quote, or where it has to
if that is missing. -/
theorem attributes_in_order (text : List Char) (i : Nat) :
    Indexed.attributes text i =
        pure ((attributes (Indexed.placeAt text i)).map Indexed.stretches) ∧
      (attributes (Indexed.placeAt text i)).Pairwise (fun a b ↦ a.stop ≤ b.name.start) ∧
      ∀ a ∈ attributes (Indexed.placeAt text i),
        (∃ name, startName? (Indexed.placeAt text i) = some name ∧
          i < name.start ∧ name.stop ≤ a.name.start) ∧
        a.Stands text ∧ a.stop ≤ text.length ∧
        ∀ j, i < j → text[j]? = some '<' → a.stop ≤ j := by
  refine ⟨indexed_attributes_eq text i, ?_⟩
  cases hname : startName? (Indexed.placeAt text i) with
  | none =>
    rw [attributes, hname]
    exact ⟨.nil, fun a ha ↦ (List.not_mem_nil ha).elim⟩
  | some name =>
    have hlt : i < text.length := by
      by_contra hge
      rw [startName?_placeAt_of_le (Nat.le_of_not_lt hge)] at hname
      cases hname
    obtain ⟨c, ch, hc, rfl, hpeek⟩ := Indexed.exists_place hlt
    rw [Indexed.placeAt_offset hc] at hname ⊢
    have hskip : (c.skip 1).offset = c.offset + 1 := Cursor.offset_skip_one hpeek
    have hafter : (name.after (c.skip 1)).IsIn text := (hc.skip 1).skip _
    have hstop : (name.after (c.skip 1)).offset = name.stop := Name.offset_after hname
    obtain ⟨hpairwise, hall⟩ := Attribute.readAll_in_order hafter
    rw [attributes, hname]
    refine ⟨hpairwise, fun a ha ↦ ?_⟩
    obtain ⟨hstands, hle, hlength, hbefore⟩ := hall a ha
    refine ⟨⟨name, rfl, ?_, hstop ▸ hle⟩, hstands, hlength, fun j hj hopening ↦ ?_⟩
    · rw [(Name.at?_eq_some hname).1, hskip]
      exact Nat.lt_succ_self _
    · refine hbefore j (Attribute.le_of_reaches (hc.skip 1) (Name.reaches_after hname) ?_ hopening)
        hopening
      rw [hskip]
      exact hj

/-- The value of the last attribute is not closed.  It ends before the next `<`, and the `>` in the
value before it ends nothing. -/
theorem attributes_in_order_of_unclosed_value :
    let text := "<a b c='x>'d=\"y<e f".toList
    (attributes (Indexed.placeAt text 0)).map Attribute.stop = [4, 11, 15] ∧
      ∀ a ∈ attributes (Indexed.placeAt text 0), a.Stands text ∧ a.stop ≤ 15 := by
  intro text
  refine ⟨by decide +kernel, fun a ha ↦ ?_⟩
  obtain ⟨-, hstands, -, hbefore⟩ := (attributes_in_order text 0).2.2 a ha
  exact ⟨hstands, hbefore 15 (by decide) (by decide +kernel)⟩

end Tag

end XmlDiagnostics.Markup
