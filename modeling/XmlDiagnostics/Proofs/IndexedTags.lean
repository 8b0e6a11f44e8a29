import XmlDiagnostics.Proofs.IndexedPlaces
import XmlDiagnostics.Proofs.IndexedReading

/-!
# Searches for tags by index

The searches that go back from an offset once more, over the indices at or before it.  The offset
may lie far behind the end of the text.  Each search comes to its end without a fault and finds
what the search over the places where a `<` stands finds.
-/

namespace XmlDiagnostics.Markup.Indexed

section Definitions

variable (text : List Char) (offset : Nat) (wanted : List Char)

/-- Whether a start tag begins at an index. -/
def isStartTag (i : Nat) : Except Fault Bool := do
  if (← charAt text i) = '<' then return (text[i + 1]?).any isNameStart else return false

/-- Whether an end tag begins at an index. -/
def isEndTag (i : Nat) : Except Fault Bool := do
  if (← charAt text i) = '<' then return text[i + 1]? = some '/' else return false

/-- What is found at the nearest start tag at or before an offset at which something is found. -/
def findInStartTag? {α : Type} (find? : Nat → Except Fault (Option α)) :
    Except Fault (Option α) :=
  (indicesBefore text offset).findSomeM? fun i ↦ do
    if ← isStartTag text i then find? i else return none

/-- The name in the nearest start tag at or before an offset that answers to `wanted`. -/
def startNameBefore? : Except Fault (Option Span) :=
  findInStartTag? text offset fun i ↦ do
    match ← nameAt? text (i + 1) with
    | none => return none
    | some name => if ← answersTo text wanted name then return some name else return none

/-- The attribute that answers to `wanted` in the nearest start tag at or before an offset that has
one. -/
def attributeBefore? : Except Fault (Option (Span × Option Span)) :=
  findInStartTag? text offset fun i ↦ do
    (← attributes text i).reverse.findM? fun a ↦
      if a.1.start ≤ offset then answersTo text wanted a.1 else return false

/-- The name in the nearest start tag that answers to `wanted` and is still open, from a number of
closed elements on. -/
def openName? : Nat → List Nat → Except Fault (Option Span)
  | _, [] => return none
  | closed, i :: earlier => do
    if (← charAt text i) = '<' then
      if text[i + 1]? = some '/' then
        match ← nameAt? text (i + 2) with
        | none => openName? closed earlier
        | some name =>
          if ← answersTo text wanted name then openName? (closed + 1) earlier
          else openName? closed earlier
      else
        match ← nameAt? text (i + 1) with
        | none => openName? closed earlier
        | some name =>
          if !(← answersTo text wanted name) then openName? closed earlier
          else if ← isEmptyElement text i then openName? closed earlier
          else if closed = 0 then return some name
          else openName? (← minus closed 1) earlier
    else openName? closed earlier

/-- The name in the nearest start tag that answers to `wanted` and is still open at an offset. -/
def openNameBefore? : Except Fault (Option Span) :=
  openName? text wanted 0 (indicesBefore text offset)

/-- The nearest end tag at or before an offset. -/
def endTagBefore? : Except Fault (Option Nat) :=
  (indicesBefore text offset).findM? (isEndTag text)

/-- The name in the nearest end tag at or before an offset. -/
def endNameBefore? : Except Fault (Option Span) := do
  match ← endTagBefore? text offset with
  | none => return none
  | some i => nameAt? text (i + 2)

/-- The last `>` before an index. -/
def lastClosing? (i : Nat) : Except Fault (Option Nat) :=
  (List.range i).reverse.findM? fun j ↦ return (← charAt text j) = '>'

/-- The text just before the nearest end tag at or before an offset. -/
def contentBefore? : Except Fault (Option Span) := do
  match ← endTagBefore? text offset with
  | none => return none
  | some i =>
    match ← lastClosing? text i with
    | none => return none
    | some j => if j + 1 < i then return some ⟨j + 1, i⟩ else return none

end Definitions

/-! ## Searches over indices -/

variable {text : List Char} {offset : Nat} {wanted : List Char} {c : Cursor}

theorem openingsAt_cons_opening (hc : c.IsIn text) (h : c.peek? = some '<') (indices : List Nat) :
    openingsAt text (c.offset :: indices) = c :: openingsAt text indices := by
  rw [openingsAt, List.filter_cons_of_pos (by rw [getElem?_offset hc, h]; rfl), List.map_cons,
    placeAt_offset hc]
  rfl

theorem openingsAt_cons_other (hc : c.IsIn text) {ch : Char} (h : c.peek? = some ch)
    (hne : ch ≠ '<') (indices : List Nat) :
    openingsAt text (c.offset :: indices) = openingsAt text indices := by
  rw [openingsAt, List.filter_cons_of_neg (by rw [getElem?_offset hc, h]; simpa using hne)]
  rfl

/-- A search over indices that finds something only where a `<` stands is a search over places. -/
theorem findSomeM?_eq {α : Type} {f : Nat → Except Fault (Option α)} {g : Cursor → Option α}
    {indices : List Nat} (hindices : ∀ i ∈ indices, i < text.length)
    (hopening : ∀ c : Cursor, c.IsIn text → c.peek? = some '<' → f c.offset = pure (g c))
    (hother : ∀ (c : Cursor) (ch : Char), c.IsIn text → c.peek? = some ch → ch ≠ '<' →
      f c.offset = pure none) :
    indices.findSomeM? f = pure ((openingsAt text indices).findSome? g) := by
  induction indices with
  | nil => rfl
  | cons i indices ih =>
    have ih := ih fun j hj ↦ hindices j (List.mem_cons_of_mem _ hj)
    obtain ⟨c, ch, hc, rfl, hpeek⟩ := exists_place (hindices i List.mem_cons_self)
    rw [List.findSomeM?_cons]
    by_cases h : ch = '<'
    · subst h
      rw [hopening c hc hpeek, pure_bind, openingsAt_cons_opening hc hpeek, List.findSome?_cons]
      cases g c with
      | none => exact ih
      | some a => rfl
    · rw [hother c ch hc hpeek h, pure_bind, openingsAt_cons_other hc hpeek h]
      exact ih

/-- A search among attributes is a search among their stretches. -/
theorem findM?_stretches {p : Span × Option Span → Except Fault Bool} {q : Attribute → Bool}
    {l : List Attribute} (h : ∀ a ∈ l, p (stretches a) = pure (q a)) :
    (l.map stretches).findM? p = pure ((l.find? q).map stretches) := by
  induction l with
  | nil => rfl
  | cons a l ih =>
    rw [List.map_cons, List.findM?, h a List.mem_cons_self, pure_bind, List.find?_cons,
      ih fun b hb ↦ h b (List.mem_cons_of_mem _ hb)]
    cases q a with
    | true => rfl
    | false => rfl

/-! ## Start tags -/

theorem isStartTag_eq (hc : c.IsIn text) (hopening : c.peek? = some '<') :
    isStartTag text c.offset = pure (Tag.startName? c).isSome := by
  rw [isStartTag, charAt_offset hc hopening, pure_bind, if_pos rfl,
    getElem?_offset_succ hc hopening, ← Name.isSome_at?, Tag.startName?]

theorem isStartTag_of_ne (hc : c.IsIn text) {ch : Char} (h : c.peek? = some ch) (hne : ch ≠ '<') :
    isStartTag text c.offset = pure false := by
  rw [isStartTag, charAt_offset hc h, pure_bind, if_neg hne]

/-- A search through start tags finds what it finds at the places where a `<` stands, if there it
finds nothing without a name. -/
theorem findInStartTag?_eq {α : Type} {find? : Nat → Except Fault (Option α)}
    {g : Cursor → Option α}
    (hfind : ∀ c : Cursor, c.IsIn text → c.peek? = some '<' → find? c.offset = pure (g c))
    (hnone : ∀ c, Tag.startName? c = none → g c = none) :
    findInStartTag? text offset find? = pure ((Tag.openingsBefore text offset).findSome? g) := by
  rw [findInStartTag?, openingsBefore_eq]
  refine findSomeM?_eq (fun _ ↦ lt_length_of_mem_indicesBefore) (fun c hc hopening ↦ ?_)
    fun c ch hc hpeek hne ↦ ?_
  · rw [isStartTag_eq hc hopening, pure_bind]
    cases hname : Tag.startName? c with
    | none =>
      rw [hnone c hname]
      rfl
    | some name => exact hfind c hc hopening
  · rw [isStartTag_of_ne hc hpeek hne, pure_bind]
    rfl

theorem startNameBefore?_eq : startNameBefore? text offset wanted =
    pure ((Tag.startNameBefore? text offset wanted).map (·.span)) := by
  rw [Tag.startNameBefore?, List.map_findSome?]
  refine findInStartTag?_eq (fun c hc hopening ↦ ?_) fun c hnone ↦ ?_
  · rw [nameAt?_startTag hc hopening, pure_bind, Function.comp_apply]
    cases hname : Tag.startName? c with
    | none => rfl
    | some name =>
      rw [Option.map_some]
      dsimp only
      rw [answersTo_span (hc.skip 1) hname, pure_bind, Option.filter_some]
      cases name.answersTo wanted with
      | true => rfl
      | false => rfl
  · rw [Function.comp_apply, hnone]
    rfl

theorem attributeBefore?_eq : attributeBefore? text offset wanted =
    pure ((Tag.attributeBefore? text offset wanted).map stretches) := by
  rw [Tag.attributeBefore?, List.map_findSome?]
  refine findInStartTag?_eq (fun c hc hopening ↦ ?_) fun c hnone ↦ ?_
  · rw [attributes_eq hc hopening, pure_bind, ← List.map_reverse, Function.comp_apply]
    refine findM?_stretches fun a ha ↦ ?_
    show (if a.name.start ≤ offset then answersTo text wanted a.name.span else pure false) = _
    rw [answersTo_of_mem_attributes hc wanted a (List.mem_reverse.mp ha)]
    by_cases hle : a.name.start ≤ offset
    · rw [if_pos hle, decide_eq_true hle, Bool.true_and]
    · rw [if_neg hle, decide_eq_false hle, Bool.false_and]
  · rw [Function.comp_apply, Tag.attributes, hnone]
    rfl

/-! ## The open element -/

theorem isEndTag_iff (hc : c.IsIn text) (hopening : c.peek? = some '<') :
    text[c.offset + 1]? = some '/' ↔ Tag.isEndTag c = true := by
  rw [getElem?_offset_succ hc hopening, Tag.isEndTag, decide_eq_true_eq]

theorem nameAt?_endTag (hc : c.IsIn text) (hopening : c.peek? = some '<')
    (hend : Tag.isEndTag c = true) :
    nameAt? text (c.offset + 2) = pure ((Name.at? (c.skip 2)).map (·.span)) := by
  have hslash : (c.skip 1).peek? = some '/' := of_decide_eq_true hend
  have hskip : (c.skip 1).skip 1 = c.skip 2 := by
    obtain ⟨offset, rest⟩ := c
    obtain _ | ⟨first, _ | ⟨second, rest⟩⟩ := rest
    · rfl
    · rfl
    · rfl
  have hoffset : (c.skip 2).offset = c.offset + 2 := by
    rw [← hskip, Cursor.offset_skip_one hslash, Cursor.offset_skip_one hopening]
  rw [← hoffset, nameAt?_eq (hc.skip 2)]

section OpenName

variable {closed : Nat} {earlier : List Nat}

/-- An end tag of the name is counted. -/
theorem openName?_endTag (hc : c.IsIn text) (hopening : c.peek? = some '<')
    (hend : Tag.isEndTag c = true) :
    openName? text wanted closed (c.offset :: earlier) =
      if (Tag.endName? c).any (·.answersTo wanted) then openName? text wanted (closed + 1) earlier
      else openName? text wanted closed earlier := by
  rw [openName?, charAt_offset hc hopening, pure_bind, if_pos rfl,
    if_pos ((isEndTag_iff hc hopening).mpr hend), nameAt?_endTag hc hopening hend, pure_bind,
    Tag.endName?, if_pos hend]
  cases hname : Name.at? (c.skip 2) with
  | none => rfl
  | some name =>
    rw [Option.map_some, Option.any_some]
    dsimp only
    rw [answersTo_span (hc.skip 2) hname, pure_bind]

/-- A start tag of the name is found, or taken from the count. -/
theorem openName?_startTag (hc : c.IsIn text) (hopening : c.peek? = some '<')
    (hend : ¬ Tag.isEndTag c = true) :
    openName? text wanted closed (c.offset :: earlier) =
      match Tag.startName? c with
      | none => openName? text wanted closed earlier
      | some name =>
        if !name.answersTo wanted || Tag.isEmptyElement c then
          openName? text wanted closed earlier
        else
          match closed with
          | 0 => pure (some name.span)
          | closed + 1 => openName? text wanted closed earlier := by
  rw [openName?, charAt_offset hc hopening, pure_bind, if_pos rfl,
    if_neg (mt (isEndTag_iff hc hopening).mp hend), nameAt?_startTag hc hopening, pure_bind]
  cases hname : Tag.startName? c with
  | none => rfl
  | some name =>
    rw [Option.map_some]
    dsimp only
    rw [answersTo_span (hc.skip 1) hname, pure_bind, isEmptyElement_eq hc hopening, pure_bind]
    cases name.answersTo wanted with
    | false => rfl
    | true =>
      cases Tag.isEmptyElement c with
      | true => rfl
      | false =>
        cases closed with
        | zero => rfl
        | succ closed => rfl

/-- All other characters are passed over. -/
theorem openName?_other (hc : c.IsIn text) {ch : Char} (h : c.peek? = some ch) (hne : ch ≠ '<') :
    openName? text wanted closed (c.offset :: earlier) = openName? text wanted closed earlier := by
  rw [openName?, charAt_offset hc h, pure_bind, if_neg hne]

end OpenName

theorem openName?_eq {indices : List Nat} (hindices : ∀ i ∈ indices, i < text.length)
    (closed : Nat) : openName? text wanted closed indices =
      pure ((OpenElement.search wanted closed (openingsAt text indices)).map (·.span)) := by
  induction indices generalizing closed with
  | nil => rfl
  | cons i earlier ih =>
    have ih := ih fun j hj ↦ hindices j (List.mem_cons_of_mem _ hj)
    obtain ⟨c, ch, hc, rfl, hpeek⟩ := exists_place (hindices i List.mem_cons_self)
    by_cases h : ch = '<'
    · subst h
      rw [openingsAt_cons_opening hc hpeek, OpenElement.search]
      by_cases hend : Tag.isEndTag c = true
      · rw [openName?_endTag hc hpeek hend, if_pos hend, ih, ih]
        split
        · rfl
        · rfl
      · rw [openName?_startTag hc hpeek hend, if_neg hend]
        cases Tag.startName? c with
        | none => exact ih closed
        | some name =>
          dsimp only
          split
          · exact ih closed
          · cases closed with
            | zero => rfl
            | succ closed => exact ih closed
    · rw [openName?_other hc hpeek h, openingsAt_cons_other hc hpeek h]
      exact ih closed

theorem openNameBefore?_eq : openNameBefore? text offset wanted =
    pure ((OpenElement.nameBefore? text offset wanted).map (·.span)) := by
  rw [openNameBefore?, OpenElement.nameBefore?, openingsBefore_eq]
  exact openName?_eq (fun _ ↦ lt_length_of_mem_indicesBefore) 0

/-! ## End tags -/

theorem endTagBefore?_eq :
    endTagBefore? text offset = pure ((Tag.endTagBefore? text offset).map (·.offset)) := by
  rw [endTagBefore?, List.findM?_eq_findSomeM?, Tag.endTagBefore?,
    List.find?_eq_findSome?_guard, List.map_findSome?, openingsBefore_eq]
  refine findSomeM?_eq (fun _ ↦ lt_length_of_mem_indicesBefore) (fun c hc hopening ↦ ?_)
    fun c ch hc hpeek hne ↦ ?_
  · rw [isEndTag, charAt_offset hc hopening, pure_bind, if_pos rfl, pure_bind,
      Function.comp_apply, Option.guard]
    by_cases hend : Tag.isEndTag c = true
    · rw [decide_eq_true ((isEndTag_iff hc hopening).mpr hend), if_pos rfl, if_pos hend]
      rfl
    · rw [decide_eq_false (mt (isEndTag_iff hc hopening).mp hend), if_neg (by decide),
        if_neg hend]
      rfl
  · rw [isEndTag, charAt_offset hc hpeek, pure_bind, if_neg hne, pure_bind]
    rfl

theorem mem_endTagBefore? (h : Tag.endTagBefore? text offset = some c) :
    c.IsIn text ∧ c.peek? = some '<' ∧ Tag.isEndTag c = true := by
  have hmem := List.mem_of_find?_eq_some h
  have hopening : c ∈ Tag.openings text :=
    (List.takeWhile_sublist _).subset (List.mem_reverse.mp hmem)
  exact ⟨Tag.isIn_of_mem_openingsBefore hmem, of_decide_eq_true (List.mem_filter.mp hopening).2,
    List.find?_some h⟩

theorem endNameBefore?_eq :
    endNameBefore? text offset = pure ((Tag.endNameBefore? text offset).map (·.span)) := by
  rw [endNameBefore?, endTagBefore?_eq, pure_bind, Tag.endNameBefore?]
  cases htag : Tag.endTagBefore? text offset with
  | none => rfl
  | some opening =>
    obtain ⟨hc, hopening, hend⟩ := mem_endTagBefore? htag
    rw [Option.map_some, Option.bind_some, Tag.endName?, if_pos hend]
    exact nameAt?_endTag hc hopening hend

/-! ## Content -/

/-- Read backwards, a text begins with its last character. -/
theorem reverse_take_succ {i : Nat} (h : i < text.length) :
    (text.take (i + 1)).reverse = text[i] :: (text.take i).reverse := by
  rw [List.take_add_one, List.getElem?_eq_getElem h, Option.toList_some, List.reverse_append,
    List.reverse_singleton, List.singleton_append]

/-- The number of characters between the last `>` before an index and the index. -/
def lengthBehindClosing (text : List Char) (i : Nat) : Nat :=
  ((text.take i).reverse.takeWhile (· ≠ '>')).length

section Content

variable {i : Nat}

theorem lengthBehindClosing_succ (h : i < text.length) :
    lengthBehindClosing text (i + 1) =
      if text[i] = '>' then 0 else lengthBehindClosing text i + 1 := by
  rw [lengthBehindClosing, reverse_take_succ h, List.takeWhile_cons]
  by_cases hclosing : text[i] = '>'
  · rw [if_pos hclosing, if_neg (by simpa using hclosing), List.length_nil]
  · rw [if_neg hclosing, if_pos (by simpa using hclosing), List.length_cons]
    rfl

theorem lastClosing?_succ (h : i < text.length) :
    lastClosing? text (i + 1) =
      if text[i] = '>' then pure (some i) else lastClosing? text i := by
  rw [lastClosing?, lastClosing?, List.range_succ, List.reverse_append, List.reverse_singleton,
    List.singleton_append, List.findM?, charAt, List.getElem?_eq_getElem h, pure_bind, pure_bind]
  by_cases hclosing : text[i] = '>'
  · rw [decide_eq_true hclosing, if_pos hclosing]
  · rw [decide_eq_false hclosing, if_neg hclosing]

/-- Going back to a `>` passes over all other characters. -/
theorem lastClosing?_eq (h : i ≤ text.length) :
    lastClosing? text i =
      pure (if lengthBehindClosing text i < i then some (i - lengthBehindClosing text i - 1)
        else none) := by
  induction i with
  | zero => rfl
  | succ i ih =>
    rw [lastClosing?_succ h, lengthBehindClosing_succ h]
    by_cases hclosing : text[i] = '>'
    · rw [if_pos hclosing, if_pos hclosing, if_pos (Nat.succ_pos i)]
      rfl
    · rw [if_neg hclosing, if_neg hclosing, ih (Nat.le_of_succ_le h)]
      simp only [Nat.add_lt_add_iff_right, Nat.add_sub_add_right]

end Content

theorem contentBefore?_eq :
    contentBefore? text offset = pure (Tag.contentBefore? text offset) := by
  rw [contentBefore?, endTagBefore?_eq, pure_bind, Tag.contentBefore?]
  cases htag : Tag.endTagBefore? text offset with
  | none => rfl
  | some opening =>
    have hle : opening.offset ≤ text.length := (mem_endTagBefore? htag).1.1
    have hcontent : Tag.contentAtEnd? (text.take opening.offset) =
        if 0 < lengthBehindClosing text opening.offset ∧
            lengthBehindClosing text opening.offset < opening.offset then
          some ⟨opening.offset - lengthBehindClosing text opening.offset, opening.offset⟩
        else none := by
      rw [Tag.contentAtEnd?, List.length_take, Nat.min_eq_left hle]
      rfl
    rw [Option.map_some, Option.bind_some, hcontent]
    dsimp only
    rw [lastClosing?_eq hle, pure_bind]
    by_cases hlt : lengthBehindClosing text opening.offset < opening.offset
    · rw [if_pos hlt]
      dsimp only
      rw [Nat.sub_add_cancel (Nat.sub_pos_of_lt hlt)]
      by_cases hpos : 0 < lengthBehindClosing text opening.offset
      · rw [if_pos (by omega), if_pos ⟨hpos, hlt⟩]
      · rw [if_neg (by omega), if_neg fun h ↦ hpos h.1]
    · rw [if_neg hlt, if_neg fun h ↦ hlt h.2]

end XmlDiagnostics.Markup.Indexed
