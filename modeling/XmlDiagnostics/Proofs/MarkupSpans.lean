import Mathlib.Data.List.Basic
import XmlDiagnostics.Family

/-!
# What the searches find is in the text

Every search through the markup gives stretches of the text that hold at least one
character, however broken the markup is: `Span.IsIn`.  The searches move cursors, and
`Cursor.IsIn` is the invariant that carries this through all of them: each reader keeps its
cursor in the text, and what it reads lies between two such cursors.
-/

namespace XmlDiagnostics.Markup

/-- A stretch of a text that holds at least one character. -/
structure Span.IsIn (text : List Char) (s : Span) : Prop where
  /-- The stretch is not empty. -/
  start_lt : s.start < s.stop
  /-- It ends in the text. -/
  stop_le : s.stop ≤ text.length

variable {text : List Char} {c : Cursor}

/-! ## Cursors -/

namespace Cursor

theorem offset_le_skip (n : Nat) (c : Cursor) : c.offset ≤ (c.skip n).offset :=
  Nat.le_add_right _ _

theorem offset_le_skipWhile (p : Char → Bool) (c : Cursor) :
    c.offset ≤ (c.skipWhile p).offset :=
  Nat.le_add_right _ _

theorem offset_skip_one {ch : Char} (h : c.peek? = some ch) :
    (c.skip 1).offset = c.offset + 1 := by
  obtain ⟨offset, rest⟩ := c
  cases rest with
  | nil => cases h
  | cons first rest => rfl

/-- The places after a place of a text are places of that text. -/
theorem IsIn.of_mem_placesFrom {offset : Nat} {rest : List Char}
    (h : IsIn text ⟨offset, rest⟩) : ∀ c ∈ placesFrom offset rest, c.IsIn text := by
  induction rest generalizing offset with
  | nil =>
    intro c hc
    cases hc
  | cons first rest ih =>
    intro c hc
    rcases List.mem_cons.mp hc with rfl | hc
    · exact h
    · have hrest : [first] ++ rest = first :: rest := rfl
      exact ih (h.step hrest) c hc

end Cursor

/-! ## Names -/

namespace Name

variable {n : Name}

/-- A name begins at its cursor, with what the cursor has ahead. -/
theorem at?_eq_some (h : at? c = some n) :
    n.start = c.offset ∧ ∃ rest, n.chars ++ rest = c.rest := by
  unfold at? at h
  split at h
  · cases h
  · rename_i first rest hrest
    split at h
    · cases h
      refine ⟨rfl, rest.dropWhile isNameChar, ?_⟩
      rw [hrest, List.cons_append, List.takeWhile_append_dropWhile]
    · cases h

theorem isIn_span (hc : c.IsIn text) (h : at? c = some n) : n.span.IsIn text := by
  have hpos := List.length_pos_iff.mpr (chars_ne_nil_of_at? h)
  obtain ⟨hstart, rest, hrest⟩ := at?_eq_some h
  constructor
  · show n.start < n.start + n.chars.length
    omega
  · show n.start + n.chars.length ≤ text.length
    rw [hstart]
    exact (hc.step hrest).1

theorem offset_after (h : at? c = some n) : (n.after c).offset = n.stop := by
  obtain ⟨hstart, rest, hrest⟩ := at?_eq_some h
  rw [after, Cursor.skip, stop, hstart, ← hrest, List.take_left]

end Name

/-! ## Attributes -/

namespace Attribute

/-- The parts of an attribute are stretches of a text. -/
structure IsIn (text : List Char) (a : Attribute) : Prop where
  /-- The name is. -/
  name : a.name.span.IsIn text
  /-- The value is, if there is one. -/
  value : ∀ s, a.value = some s → s.IsIn text

theorem isIn_skipBlanks (hc : c.IsIn text) : (skipBlanks c).IsIn text :=
  hc.skipWhile _

theorem isIn_afterValue (hc : c.IsIn text) (quote : Char) : (afterValue quote c).IsIn text := by
  have hend : (valueEnd quote c).IsIn text := (hc.skip 1).skipWhile _
  unfold afterValue
  split
  · exact hend.skip 1
  · exact hend

theorem offset_lt_afterValue {quote : Char} (h : c.peek? = some quote) :
    c.offset < (afterValue quote c).offset := by
  have hend : c.offset < (valueEnd quote c).offset := by
    refine Nat.lt_of_lt_of_le ?_ (Cursor.offset_le_skipWhile _ (c.skip 1))
    rw [Cursor.offset_skip_one h]
    exact Nat.lt_succ_self _
  unfold afterValue
  split
  · exact Nat.lt_of_lt_of_le hend (Cursor.offset_le_skip 1 _)
  · exact hend

/-- A value is a stretch of the text, and reading goes on in the text. -/
theorem isIn_valueAt (hc : c.IsIn text) :
    (∀ s, (valueAt c).1 = some s → s.IsIn text) ∧ (valueAt c).2.IsIn text := by
  unfold valueAt
  split
  · exact ⟨fun _ hs ↦ (nomatch hs), hc⟩
  · rename_i quote hquote
    split
    · refine ⟨fun s hs ↦ ?_, isIn_afterValue hc quote⟩
      cases hs
      exact ⟨offset_lt_afterValue hquote, (isIn_afterValue hc quote).1⟩
    · exact ⟨fun _ hs ↦ (nomatch hs), hc⟩

theorem isIn_valueAfter (hc : c.IsIn text) :
    (∀ s, (valueAfter c).1 = some s → s.IsIn text) ∧ (valueAfter c).2.IsIn text := by
  have hblanks := isIn_skipBlanks hc
  unfold valueAfter
  split
  · exact isIn_valueAt (isIn_skipBlanks (hblanks.skip 1))
  · exact ⟨fun _ hs ↦ (nomatch hs), hblanks⟩

/-- All attributes that are read in a text are in it. -/
theorem isIn_of_mem_readAll (hc : c.IsIn text) : ∀ a ∈ readAll c, a.IsIn text := by
  fun_induction readAll c with
  | case1 c hnone =>
    intro a ha
    cases ha
  | case2 c name hname hlt ih =>
    have hblanks := isIn_skipBlanks hc
    obtain ⟨hvalue, hafter⟩ := isIn_valueAfter (hblanks.skip name.chars.length)
    intro a ha
    rcases List.mem_cons.mp ha with rfl | ha
    · exact ⟨Name.isIn_span hblanks hname, hvalue⟩
    · exact ih hafter a ha

end Attribute

/-! ## Tags -/

namespace Tag

theorem isIn_of_mem_openingsBefore {offset : Nat} (h : c ∈ openingsBefore text offset) :
    c.IsIn text := by
  have hopening : c ∈ openings text :=
    (List.takeWhile_sublist _).subset (List.mem_reverse.mp h)
  exact Cursor.IsIn.of_mem_placesFrom (Cursor.isIn_start text) c (List.mem_filter.mp hopening).1

theorem isIn_startName? (hc : c.IsIn text) {n : Name} (h : startName? c = some n) :
    n.span.IsIn text :=
  Name.isIn_span (hc.skip 1) h

theorem isIn_endName? (hc : c.IsIn text) {n : Name} (h : endName? c = some n) :
    n.span.IsIn text := by
  unfold endName? at h
  split at h
  · exact Name.isIn_span (hc.skip 2) h
  · cases h

theorem isIn_of_mem_attributes (hc : c.IsIn text) : ∀ a ∈ attributes c, a.IsIn text := by
  unfold attributes
  split
  · intro a ha
    cases ha
  · rename_i name hname
    exact Attribute.isIn_of_mem_readAll ((hc.skip 1).skip name.chars.length)

variable {offset : Nat} {wanted : List Char}

theorem isIn_startNameBefore? {n : Name} (h : startNameBefore? text offset wanted = some n) :
    n.span.IsIn text := by
  obtain ⟨opening, hmem, hname⟩ := List.exists_of_findSome?_eq_some h
  exact isIn_startName? (isIn_of_mem_openingsBefore hmem) (Option.filter_eq_some_iff.mp hname).1

/-- The search for an attribute gives stretches of the text. -/
theorem isIn_attributeBefore? {a : Attribute}
    (h : attributeBefore? text offset wanted = some a) : a.IsIn text := by
  obtain ⟨opening, hmem, hfind⟩ := List.exists_of_findSome?_eq_some h
  exact isIn_of_mem_attributes (isIn_of_mem_openingsBefore hmem) a
    (List.mem_reverse.mp (List.mem_of_find?_eq_some hfind))

theorem isIn_endTagBefore? (h : endTagBefore? text offset = some c) : c.IsIn text :=
  isIn_of_mem_openingsBefore (List.mem_of_find?_eq_some h)

theorem isIn_endNameBefore? {n : Name} (h : endNameBefore? text offset = some n) :
    n.span.IsIn text := by
  obtain ⟨opening, htag, hname⟩ := Option.bind_eq_some_iff.mp h
  exact isIn_endName? (isIn_endTagBefore? htag) hname

theorem isIn_contentBefore? {s : Span} (h : contentBefore? text offset = some s) :
    s.IsIn text := by
  obtain ⟨opening, htag, hcontent⟩ := Option.bind_eq_some_iff.mp h
  have hle := (isIn_endTagBefore? htag).1
  unfold contentAtEnd? at hcontent
  simp only [List.length_take, Nat.min_eq_left hle] at hcontent
  split at hcontent
  · cases hcontent
    constructor
    · show _ - _ < opening.offset
      omega
    · exact hle
  · cases hcontent

end Tag

/-! ## The open element, the root element, references -/

/-- What the search for an open element finds is the name in a start tag at one of the places. -/
theorem OpenElement.exists_startName?_of_search {wanted : List Char} {closed : Nat}
    {cursors : List Cursor} {n : Name} (h : search wanted closed cursors = some n) :
    ∃ c ∈ cursors, Tag.startName? c = some n := by
  have hcons : ∀ {opening : Cursor} {earlier : List Cursor},
      (∃ c ∈ earlier, Tag.startName? c = some n) →
        ∃ c ∈ opening :: earlier, Tag.startName? c = some n := by
    rintro opening earlier ⟨c, hc, hname⟩
    exact ⟨c, List.mem_cons_of_mem _ hc, hname⟩
  fun_induction search wanted closed cursors with
  | case1 => cases h
  | case2 closed opening earlier _ _ ih => exact hcons (ih h)
  | case3 closed opening earlier _ _ ih => exact hcons (ih h)
  | case4 closed opening earlier _ _ ih => exact hcons (ih h)
  | case5 closed opening earlier _ name _ _ ih => exact hcons (ih h)
  | case6 opening earlier _ name hname _ =>
    cases h
    exact ⟨opening, List.mem_cons_self, hname⟩
  | case7 opening earlier _ name _ _ closed ih => exact hcons (ih h)

/-- The search for an open element gives a stretch of the text. -/
theorem OpenElement.isIn_search {wanted : List Char} {closed : Nat} {cursors : List Cursor}
    (hcursors : ∀ c ∈ cursors, c.IsIn text) {n : Name}
    (h : search wanted closed cursors = some n) : n.span.IsIn text := by
  obtain ⟨c, hc, hname⟩ := exists_startName?_of_search h
  exact Tag.isIn_startName? (hcursors c hc) hname

theorem OpenElement.isIn_nameBefore? {offset : Nat} {wanted : List Char} {n : Name}
    (h : nameBefore? text offset wanted = some n) : n.span.IsIn text :=
  isIn_search (fun _ hc ↦ Tag.isIn_of_mem_openingsBefore hc) h

namespace Root

theorem isIn_afterComment (hc : c.IsIn text) : (afterComment c).IsIn text := by
  fun_induction afterComment c with
  | case1 => exact hc
  | case2 => exact hc.skip 3
  | case3 c _ _ _ _ _ ih => exact ih (hc.skip 1)

/-- The root element is searched inside the text. -/
theorem isIn_openingFrom? (hc : c.IsIn text) {opening : Cursor}
    (h : openingFrom? c = some opening) : opening.IsIn text := by
  fun_induction openingFrom? c with
  | case1 => cases h
  | case2 c _ _ _ _ _ ih => exact ih (isIn_afterComment (hc.skip 4)) h
  | case3 c _ _ _ _ _ =>
    cases h
    exact hc
  | case4 c _ _ _ _ _ _ ih => exact ih (hc.skip 1) h

theorem peek?_of_openingFrom? {opening : Cursor} (h : openingFrom? c = some opening) :
    opening.peek? = some '<' := by
  fun_induction openingFrom? c with
  | case1 => cases h
  | case2 c _ _ _ _ _ ih => exact ih h
  | case3 c first rest hrest _ hstart =>
    cases h
    rw [Cursor.peek?, hrest, List.head?_cons, hstart.1]
  | case4 c _ _ _ _ _ _ ih => exact ih h

theorem isIn_opening? (h : opening? text = some c) : c.IsIn text :=
  isIn_openingFrom? (Cursor.isIn_start text) h

theorem isIn_name? {n : Name} (h : name? text = some n) : n.span.IsIn text := by
  obtain ⟨opening, hopening, hname⟩ := Option.bind_eq_some_iff.mp h
  exact Tag.isIn_startName? (isIn_opening? hopening) hname

theorem isIn_attribute? {wanted : List Char} {a : Attribute}
    (h : attribute? text wanted = some a) : a.IsIn text := by
  obtain ⟨opening, hopening, hfind⟩ := Option.bind_eq_some_iff.mp h
  exact Tag.isIn_of_mem_attributes (isIn_opening? hopening) a (List.mem_of_find?_eq_some hfind)

end Root

/-- A reference is a stretch of the text, with its semicolon if it has one. -/
theorem Reference.isIn_at? (hc : c.IsIn text) {s : Span} (h : at? c = some s) :
    s.IsIn text := by
  obtain ⟨name, hname, hspan⟩ := Option.map_eq_some_iff.mp h
  have hstop : (name.after (c.skip 1)).IsIn text := (hc.skip 1).skip name.chars.length
  have hlt : c.offset < (name.after (c.skip 1)).offset := by
    rw [Name.offset_after hname]
    refine Nat.lt_of_le_of_lt (Cursor.offset_le_skip 1 c) ?_
    rw [← (Name.at?_eq_some hname).1]
    exact (Name.isIn_span (hc.skip 1) hname).start_lt
  dsimp only at hspan
  split at hspan
  · rename_i hsemicolon
    cases hspan
    constructor
    · exact Nat.lt_succ_of_lt hlt
    · show (name.after (c.skip 1)).offset + 1 ≤ text.length
      rw [← Cursor.offset_skip_one hsemicolon]
      exact (hstop.skip 1).1
  · cases hspan
    exact ⟨hlt, hstop.1⟩

theorem Reference.isIn_before? {offset : Nat} {s : Span} (h : before? text offset = some s) :
    s.IsIn text := by
  obtain ⟨before, -, hat⟩ := Option.bind_eq_some_iff.mp h
  exact isIn_at? ((Cursor.isIn_start text).skip before.length) hat

end XmlDiagnostics.Markup
