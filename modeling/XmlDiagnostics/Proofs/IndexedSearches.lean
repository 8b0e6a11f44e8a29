import XmlDiagnostics.Proofs.FamilySpans
import XmlDiagnostics.Proofs.IndexedTags
import XmlDiagnostics.Proofs.OffsetOrder

/-!
# Searches by index

The searches for the root element and for references by index, and then all searches together:
each of them comes to its end without a fault on every text and finds what the search with cursors
finds (`Markup.Indexed.searches_agree`), everything that is found is a stretch of the text
(`Markup.searches_find_stretches`), and the families lose nothing of it (`Family.searches_safe`).
-/

namespace XmlDiagnostics

namespace Markup.Indexed

/-! ## The root element -/

section RootDefinitions

variable (text : List Char)

/-- The first index from `i` on at which a pattern stands. -/
def findFrom? (pattern : List Char) (i : Nat) : Option Nat :=
  (List.range' i (text.length - i)).find? fun j ↦ pattern.isPrefixOf (text.drop j)

/-- The index after a comment, from an index inside it. -/
def afterComment (i : Nat) : Nat :=
  ((findFrom? text ['-', '-', '>'] i).map (· + 3)).getD text.length

/-- The first start tag outside comments from an index on, in a number of rounds. -/
def rootTagFrom? : Nat → Nat → Except Fault (Option Nat)
  | 0, _ => throw .endless
  | rounds + 1, i => do
    if i < text.length then
      if ['<', '!', '-', '-'].isPrefixOf (text.drop i) then
        rootTagFrom? rounds (afterComment text (i + 4))
      else if ← isStartTag text i then return some i
      else rootTagFrom? rounds (i + 1)
    else return none

/-- The place where the root element begins. -/
def rootTag? : Except Fault (Option Nat) :=
  rootTagFrom? text (text.length + 1) 0

/-- The name of the root element. -/
def rootName? : Except Fault (Option Span) := do
  match ← rootTag? text with
  | none => return none
  | some i => nameAt? text (i + 1)

/-- The first attribute of the root element that answers to `wanted`. -/
def rootAttribute? (wanted : List Char) : Except Fault (Option (Span × Option Span)) := do
  match ← rootTag? text with
  | none => return none
  | some i => (← attributes text i).findM? fun a ↦ answersTo text wanted a.1

end RootDefinitions

variable {text : List Char} {offset : Nat} {wanted : List Char} {c : Cursor}

theorem offset_skip_of_isPrefixOf {pattern : List Char} (h : pattern.isPrefixOf c.rest = true) :
    (c.skip pattern.length).offset = c.offset + pattern.length := by
  have hle := (List.isPrefixOf_iff_prefix.mp h).length_le
  rw [Cursor.skip, List.length_take, Nat.min_eq_left hle]

theorem findFrom?_nil {pattern : List Char} (hc : c.IsIn text) (hrest : c.rest = []) :
    findFrom? text pattern c.offset = none := by
  rw [findFrom?, length_sub_offset hc, hrest]
  rfl

theorem findFrom?_cons {pattern : List Char} (hc : c.IsIn text) {first : Char} {rest : List Char}
    (hrest : c.rest = first :: rest) :
    findFrom? text pattern c.offset =
      if pattern.isPrefixOf c.rest then some c.offset
      else findFrom? text pattern (c.skip 1).offset := by
  have hpeek : c.peek? = some first := by rw [Cursor.peek?, hrest, List.head?_cons]
  have hlength : text.length - (c.offset + 1) = rest.length := by
    rw [← Nat.sub_sub, length_sub_offset hc, hrest, List.length_cons, Nat.add_sub_cancel]
  rw [findFrom?, findFrom?, length_sub_offset hc, Cursor.offset_skip_one hpeek, hlength, hrest,
    List.length_cons, List.range'_succ, List.find?_cons, ← hc.2, hrest]
  cases pattern.isPrefixOf (first :: rest) with
  | true => rfl
  | false => rfl

theorem afterComment_eq (hc : c.IsIn text) :
    afterComment text c.offset = (Root.afterComment c).offset := by
  fun_induction Root.afterComment c with
  | case1 c hrest =>
    have hlength := length_sub_offset hc
    have hle := hc.1
    rw [hrest, List.length_nil] at hlength
    rw [afterComment, findFrom?_nil hc hrest, Option.map_none, Option.getD_none]
    omega
  | case2 c _ _ hrest hprefix =>
    rw [afterComment, findFrom?_cons hc hrest, if_pos hprefix]
    exact (offset_skip_of_isPrefixOf hprefix).symm
  | case3 c _ _ hrest hprefix _ ih =>
    rw [afterComment, findFrom?_cons hc hrest, if_neg hprefix, ← afterComment]
    exact ih (hc.skip 1)

/-- As many rounds as there are characters left, and one more, are enough for the root element. -/
theorem rootTagFrom?_eq (hc : c.IsIn text) {rounds : Nat} (h : c.rest.length < rounds) :
    rootTagFrom? text rounds c.offset = pure ((Root.openingFrom? c).map (·.offset)) := by
  fun_induction Root.openingFrom? c generalizing rounds with
  | case1 c hrest =>
    obtain _ | rounds := rounds
    · cases h
    · have hlength := length_sub_offset hc
      rw [hrest, List.length_nil] at hlength
      rw [rootTagFrom?, if_neg (by omega)]
      rfl
  | case2 c first rest hrest hprefix hlt ih =>
    obtain _ | rounds := rounds
    · cases h
    · have hlength := length_sub_offset hc
      have hskip : (c.skip 4).offset = c.offset + 4 := offset_skip_of_isPrefixOf hprefix
      have hafter := Root.isIn_afterComment (hc.skip 4)
      rw [rootTagFrom?, if_pos (by omega), ← hc.2, if_pos hprefix, ← hskip,
        afterComment_eq (hc.skip 4)]
      exact ih hafter (by omega)
  | case3 c first rest hrest hprefix hstart =>
    obtain _ | rounds := rounds
    · cases h
    · have hlength := length_sub_offset hc
      have hpeek : c.peek? = some '<' := by
        rw [Cursor.peek?, hrest, List.head?_cons, hstart.1]
      rw [rootTagFrom?, if_pos (by rw [hrest, List.length_cons] at hlength; omega), ← hc.2,
        if_neg hprefix, isStartTag_eq hc hpeek, hstart.2, pure_bind]
      rfl
  | case4 c first rest hrest hprefix hstart hlt ih =>
    obtain _ | rounds := rounds
    · cases h
    · have hlength := length_sub_offset hc
      have hpeek : c.peek? = some first := by rw [Cursor.peek?, hrest, List.head?_cons]
      have hfalse : isStartTag text c.offset = pure false := by
        by_cases hfirst : first = '<'
        · subst hfirst
          rw [isStartTag_eq hc hpeek]
          rw [Bool.eq_false_iff.mpr fun hname ↦ hstart ⟨rfl, hname⟩]
        · exact isStartTag_of_ne hc hpeek hfirst
      rw [rootTagFrom?, if_pos (by omega), ← hc.2, if_neg hprefix, hfalse, pure_bind,
        ← Cursor.offset_skip_one hpeek]
      exact ih (hc.skip 1) (by omega)

theorem rootTag?_eq : rootTag? text = pure ((Root.opening? text).map (·.offset)) :=
  rootTagFrom?_eq (Cursor.isIn_start text) (Nat.lt_succ_self _)

theorem rootName?_eq : rootName? text = pure ((Root.name? text).map (·.span)) := by
  rw [rootName?, rootTag?_eq, pure_bind, Root.name?]
  cases hroot : Root.opening? text with
  | none => rfl
  | some opening =>
    exact nameAt?_startTag (Root.isIn_opening? hroot) (Root.peek?_of_openingFrom? hroot)

theorem rootAttribute?_eq :
    rootAttribute? text wanted = pure ((Root.attribute? text wanted).map stretches) := by
  rw [rootAttribute?, rootTag?_eq, pure_bind, Root.attribute?]
  cases hroot : Root.opening? text with
  | none => rfl
  | some opening =>
    have hc := Root.isIn_opening? hroot
    rw [Option.map_some, Option.bind_some]
    dsimp only
    rw [attributes_eq hc (Root.peek?_of_openingFrom? hroot), pure_bind]
    exact findM?_stretches (answersTo_of_mem_attributes hc wanted)

/-! ## References -/

section ReferenceDefinitions

variable (text : List Char)

/-- The ampersand that leads to an index over name characters, from the character before the index
back.  At the index `start`, where the search begins, a semicolon may stand. -/
def ampersandBefore? (start : Nat) : Nat → Except Fault (Option Nat)
  | 0 => return none
  | i + 1 => do
    let c ← charAt text i
    if c = '&' then return some i
    else if isNameChar c || (i = start && c = ';') then ampersandBefore? start i
    else return none

/-- The reference around the character at an offset, or around the last character if the offset is
after it. -/
def referenceBefore? (offset : Nat) : Except Fault (Option Span) := do
  if 0 < text.length then
    let start := min offset (← minus text.length 1)
    match ← ampersandBefore? text start (start + 1) with
    | none => return none
    | some i =>
      match ← nameAt? text (i + 1) with
      | none => return none
      | some name =>
        if text[name.stop]? = some ';' then return some ⟨i, name.stop + 1⟩
        else return some ⟨i, name.stop⟩
  else return none

end ReferenceDefinitions

/-- What is before the ampersand that name characters lead back to. -/
def backToAmpersand? (reversed : List Char) : Option (List Char) :=
  match reversed.dropWhile isNameChar with
  | '&' :: before => some before
  | _ => none

theorem backToAmpersand?_cons (ch : Char) (rest : List Char) :
    backToAmpersand? (ch :: rest) =
      if ch = '&' then some rest
      else if isNameChar ch then backToAmpersand? rest
      else none := by
  by_cases hampersand : ch = '&'
  · subst hampersand
    rfl
  · rw [if_neg hampersand]
    by_cases hname : isNameChar ch = true
    · rw [backToAmpersand?, List.dropWhile_cons_of_pos hname, if_pos hname]
      rfl
    · rw [if_neg hname]
      unfold backToAmpersand?
      rw [List.dropWhile_cons_of_neg hname]
      split
      · rename_i heq
        cases heq
        exact absurd rfl hampersand
      · rfl

theorem length_lt_of_backToAmpersand? {reversed before : List Char}
    (h : backToAmpersand? reversed = some before) : before.length < reversed.length := by
  have hle := (List.dropWhile_suffix isNameChar (l := reversed)).length_le
  unfold backToAmpersand? at h
  split at h
  · rename_i heq
    cases h
    rw [heq, List.length_cons] at hle
    exact hle
  · cases h

/-- A semicolon may stand at the end only. -/
theorem upToAmpersand?_cons (ch : Char) (rest : List Char) :
    Reference.upToAmpersand? (ch :: rest) =
      if ch = ';' then backToAmpersand? rest else backToAmpersand? (ch :: rest) := by
  by_cases hsemicolon : ch = ';'
  · subst hsemicolon
    rfl
  · rw [if_neg hsemicolon, Reference.upToAmpersand?]
    · rfl
    · intro others heq
      exact hsemicolon (List.cons.inj heq).1

section Ampersand

variable {start i : Nat}

theorem ampersandBefore?_succ (h : i < text.length) :
    ampersandBefore? text start (i + 1) =
      if text[i] = '&' then pure (some i)
      else if isNameChar text[i] || (i = start && text[i] = ';') then
        ampersandBefore? text start i
      else pure none := by
  rw [ampersandBefore?, charAt, List.getElem?_eq_getElem h, pure_bind]

/-- Before the place where the search began, only name characters lead back. -/
theorem ampersandBefore?_eq (hi : i ≤ start) (hstart : start < text.length) :
    ampersandBefore? text start i =
      pure ((backToAmpersand? (text.take i).reverse).map List.length) := by
  induction i with
  | zero => rfl
  | succ i ih =>
    have hlt : i < text.length := by omega
    rw [ampersandBefore?_succ hlt, reverse_take_succ hlt, backToAmpersand?_cons,
      ih (Nat.le_of_succ_le hi), decide_eq_false (Nat.ne_of_lt hi), Bool.false_and,
      Bool.or_false]
    by_cases hampersand : text[i] = '&'
    · rw [if_pos hampersand, if_pos hampersand, Option.map_some, List.length_reverse,
        List.length_take, Nat.min_eq_left (Nat.le_of_lt hlt)]
    · rw [if_neg hampersand, if_neg hampersand]
      split
      · rfl
      · rfl

/-- Where the search begins, a semicolon leads back too. -/
theorem ampersandBefore?_start (hstart : start < text.length) :
    ampersandBefore? text start (start + 1) =
      pure ((Reference.upToAmpersand? (text.take (start + 1)).reverse).map List.length) := by
  rw [ampersandBefore?_succ hstart, reverse_take_succ hstart, upToAmpersand?_cons,
    ampersandBefore?_eq (Nat.le_refl start) hstart]
  by_cases hsemicolon : text[start] = ';'
  · rw [if_neg (by rw [hsemicolon]; decide), if_pos (by simp [hsemicolon]), if_pos hsemicolon]
  · rw [if_neg hsemicolon, backToAmpersand?_cons, decide_eq_false hsemicolon, Bool.and_false,
      Bool.or_false]
    by_cases hampersand : text[start] = '&'
    · rw [if_pos hampersand, if_pos hampersand, Option.map_some, List.length_reverse,
        List.length_take, Nat.min_eq_left (Nat.le_of_lt hstart)]
    · rw [if_neg hampersand, if_neg hampersand]
      split
      · rfl
      · rfl

end Ampersand

theorem length_lt_of_upToAmpersand? {reversed before : List Char}
    (h : Reference.upToAmpersand? reversed = some before) : before.length < reversed.length := by
  cases reversed with
  | nil => cases h
  | cons ch rest =>
    rw [upToAmpersand?_cons] at h
    split at h
    · exact Nat.lt_succ_of_lt (length_lt_of_backToAmpersand? h)
    · exact length_lt_of_backToAmpersand? h

theorem referenceBefore?_eq :
    referenceBefore? text offset = pure (Reference.before? text offset) := by
  rw [referenceBefore?]
  by_cases hpos : 0 < text.length
  · have hminus : minus text.length 1 = pure (text.length - 1) := if_pos hpos
    have htake : text.take (offset + 1) = text.take (min offset (text.length - 1) + 1) := by
      rw [show min offset (text.length - 1) + 1 = min (offset + 1) text.length by omega,
        ← List.take_take, List.take_length]
    have hstart : min offset (text.length - 1) < text.length := by omega
    rw [if_pos hpos, hminus, pure_bind, Reference.before?, htake]
    dsimp only
    rw [ampersandBefore?_start hstart, pure_bind]
    cases hback : Reference.upToAmpersand?
        (text.take (min offset (text.length - 1) + 1)).reverse with
    | none => rfl
    | some before =>
      have hlt : before.length < text.length := by
        have hbefore := length_lt_of_upToAmpersand? hback
        rw [List.length_reverse, List.length_take] at hbefore
        omega
      obtain ⟨c, ch, hc, hoffset, hpeek⟩ := exists_place hlt
      have hskip : (Cursor.start text).skip before.length = c := by
        have hplace : ((Cursor.start text).skip before.length).offset = before.length := by
          simp only [Cursor.skip, Cursor.start, List.length_take,
            Nat.min_eq_left (Nat.le_of_lt hlt), Nat.zero_add]
        rw [← placeAt_offset ((Cursor.isIn_start text).skip before.length), hplace, ← hoffset,
          placeAt_offset hc]
      rw [Option.map_some, Option.bind_some, hskip, Reference.at?, ← hoffset]
      dsimp only
      rw [← Cursor.offset_skip_one hpeek, nameAt?_eq (hc.skip 1), pure_bind]
      cases hname : Name.at? (c.skip 1) with
      | none => rfl
      | some name =>
        have hafter : (name.after (c.skip 1)).IsIn text := (hc.skip 1).skip _
        have hstop : name.span.stop = (name.after (c.skip 1)).offset :=
          (Name.offset_after hname).symm
        rw [Option.map_some, Option.map_some]
        dsimp only
        rw [hstop, getElem?_offset hafter]
        split
        · rfl
        · rfl
  · have hnil : text = [] := List.length_eq_zero_iff.mp (Nat.eq_zero_of_not_pos hpos)
    rw [if_neg hpos, hnil]
    rfl

/-! ## All searches -/

/-- Every search by index comes to its end without a fault, and with what the search with cursors
finds. -/
structure SearchesAgree (text : List Char) (offset : Nat) (wanted : List Char) : Prop where
  startName : startNameBefore? text offset wanted =
    .ok ((Tag.startNameBefore? text offset wanted).map (·.span))
  openName : openNameBefore? text offset wanted =
    .ok ((OpenElement.nameBefore? text offset wanted).map (·.span))
  endName : endNameBefore? text offset = .ok ((Tag.endNameBefore? text offset).map (·.span))
  content : contentBefore? text offset = .ok (Tag.contentBefore? text offset)
  rootName : rootName? text = .ok ((Root.name? text).map (·.span))
  rootAttribute : rootAttribute? text wanted =
    .ok ((Root.attribute? text wanted).map stretches)
  nearAttribute : attributeBefore? text offset wanted =
    .ok ((Tag.attributeBefore? text offset wanted).map stretches)
  reference : referenceBefore? text offset = .ok (Reference.before? text offset)

theorem searches_agree (text : List Char) (offset : Nat) (wanted : List Char) :
    SearchesAgree text offset wanted where
  startName := startNameBefore?_eq
  openName := openNameBefore?_eq
  endName := endNameBefore?_eq
  content := contentBefore?_eq
  rootName := rootName?_eq
  rootAttribute := rootAttribute?_eq
  nearAttribute := attributeBefore?_eq
  reference := referenceBefore?_eq

end Markup.Indexed

namespace Markup

/-- Everything that a search finds is a stretch of the text. -/
structure SearchesFindStretches (text : List Char) (offset : Nat) (wanted : List Char) :
    Prop where
  startName : ∀ n ∈ Tag.startNameBefore? text offset wanted, n.span.IsIn text
  openName : ∀ n ∈ OpenElement.nameBefore? text offset wanted, n.span.IsIn text
  endName : ∀ n ∈ Tag.endNameBefore? text offset, n.span.IsIn text
  content : ∀ s ∈ Tag.contentBefore? text offset, s.IsIn text
  rootName : ∀ n ∈ Root.name? text, n.span.IsIn text
  rootAttribute : ∀ a ∈ Root.attribute? text wanted, a.IsIn text
  nearAttribute : ∀ a ∈ Tag.attributeBefore? text offset wanted, a.IsIn text
  reference : ∀ s ∈ Reference.before? text offset, s.IsIn text

theorem searches_find_stretches (text : List Char) (offset : Nat) (wanted : List Char) :
    SearchesFindStretches text offset wanted where
  startName _ := Tag.isIn_startNameBefore?
  openName _ := OpenElement.isIn_nameBefore?
  endName _ := Tag.isIn_endNameBefore?
  content _ := Tag.isIn_contentBefore?
  rootName _ := Root.isIn_name?
  rootAttribute _ := Root.isIn_attribute?
  nearAttribute _ := Tag.isIn_attributeBefore?
  reference _ := Reference.isIn_before?

end Markup

/-- A range goes over a stretch of a document. -/
structure Range.GoesOver (document : Document) (range : Range) (s : Markup.Span) : Prop where
  /-- The range is not empty. -/
  start_lt : range.start < range.stop
  /-- It begins where the stretch begins. -/
  offsetAt_start : document.offsetAt range.start = .ok s.start
  /-- It ends where the stretch ends. -/
  offsetAt_stop : document.offsetAt range.stop = .ok s.stop

namespace Family

/-- A stretch of a short document has a range that goes over it. -/
theorem exists_goesOver_of_isIn {document : Document} (hlength : document.length < Position.bound)
    {s : Markup.Span} (h : s.IsIn document.chars) :
    ∃ range, rangeOf? document s = some range ∧ range.GoesOver document s := by
  obtain ⟨range, hrange, hstart, hstop⟩ := exists_rangeOf? (Nat.le_of_lt h.start_lt) h.stop_le
    (Nat.lt_of_le_of_lt h.stop_le hlength)
  exact ⟨range, hrange, Document.positionAt_lt_positionAt hlength hstart hstop h.start_lt,
    Document.offsetAt_of_positionAt hlength hstart, Document.offsetAt_of_positionAt hlength hstop⟩

/-- The searches are safe on every text, and a family loses nothing of what they find. -/
theorem searches_safe :
    (∀ (text : List Char) (offset : Nat) (wanted : List Char),
      Markup.Indexed.SearchesAgree text offset wanted ∧
        Markup.SearchesFindStretches text offset wanted) ∧
    ∀ (family : Family) (document : Document), document.length < Position.bound →
      ∀ (location : Event.Location) (key : String) (arguments : List Argument),
        (∀ s, family.span? document.chars location key arguments = some s →
          ∃ range, family.resolve? document location key arguments = some range ∧
            range.GoesOver document s) ∧
        (family.span? document.chars location key arguments = none →
          family.resolve? document location key arguments = none) := by
  refine ⟨fun text offset wanted ↦ ⟨Markup.Indexed.searches_agree text offset wanted,
    Markup.searches_find_stretches text offset wanted⟩, ?_⟩
  intro family document hlength location key arguments
  constructor
  · intro s hs
    obtain ⟨range, hrange, hover⟩ := exists_goesOver_of_isIn hlength (isIn_span? hs)
    refine ⟨range, ?_, hover⟩
    rw [resolve?, hs, Option.bind_some, hrange]
  · intro hnone
    rw [resolve?, hnone, Option.bind_none]

/-- A value that is not closed is found from far behind the end of the text, past the `<` that is
its last character. -/
theorem searches_safe_behind_end :
    let document : Document := .ofString "<a b='<"
    let arguments : List Argument := [.str "a", .str "b"]
    document.length < Position.bound ∧
      Markup.Indexed.attributeBefore? document.chars 99 ['b'] =
        .ok (some (⟨3, 4⟩, some ⟨5, 6⟩)) ∧
      ∃ range, xml.resolve? document ⟨100, 1, 100⟩ "LessthanInAttValue" arguments = some range ∧
        range.GoesOver document ⟨5, 6⟩ := by
  intro document arguments
  have hlength : document.length < Position.bound := by decide
  have hfound : Markup.Tag.attributeBefore? document.chars 99 ['b'] =
      some ⟨⟨3, ['b']⟩, some ⟨5, 6⟩⟩ := by decide +kernel
  have hattribute := (searches_safe.1 document.chars 99 ['b']).1.nearAttribute
  rw [hfound] at hattribute
  have hspan : xml.span? document.chars ⟨100, 1, 100⟩ "LessthanInAttValue" arguments =
      some ⟨5, 6⟩ := by decide +kernel
  exact ⟨hlength, hattribute,
    (searches_safe.2 xml document hlength ⟨100, 1, 100⟩ "LessthanInAttValue" arguments).1 _ hspan⟩

end Family

end XmlDiagnostics
