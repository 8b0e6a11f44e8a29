import XmlDiagnostics.Proofs.FamilyKeys
import XmlDiagnostics.Proofs.IndexedPlaces
import XmlDiagnostics.Proofs.WrittenMarkup

/-!
# The prolog

Before the root element stand blanks, comments and processing instructions.  The search for the root
element reads them from the beginning.  It passes over comments as a whole, but looks into
processing instructions as it looks at blanks: character by character.  So the root element is found
just if that way of reading gets through the prolog, `Root.Passed`, and no start tag begins outside
of what it takes for comments.

It does get through if nothing in an instruction looks like the beginning of a start tag or of a
comment (`PrologItem.passed_flatMap`).  Comments may have any text.
-/

namespace XmlDiagnostics

namespace Markup

/-- What may stand before the root element. -/
inductive PrologItem where
  /-- Blanks. -/
  | blanks (s : List Char) (h : ∀ c ∈ s, Text.isBlank c = true)
  /-- A comment. -/
  | comment (content : List Char) (h : ¬ ['-', '-'] <:+: content)
  /-- A processing instruction, which may be the declaration of the version. -/
  | instruction (content : List Char) (h : ¬ ['?', '>'] <:+: content)

/-- The characters of an item. -/
def PrologItem.chars : PrologItem → List Char
  | blanks s _ => s
  | comment content _ => ['<', '!', '-', '-'] ++ (content ++ ['-', '-', '>'])
  | instruction content _ => ['<', '?'] ++ (content ++ ['?', '>'])

namespace Root

/-- Behind a `<`, whether a start tag or a comment begins with it. -/
def Begins (rest : List Char) : Prop :=
  rest.head?.any isNameStart = true ∨ ['!', '-', '-'] <+: rest

instance : DecidablePred Begins := fun rest ↦
  inferInstanceAs (Decidable (rest.head?.any isNameStart = true ∨ ['!', '-', '-'] <+: rest))

/-- A text that can be passed over: it consists of comments, each up to the first `-->` behind its
beginning, and of characters with which neither a start tag nor a comment begins. -/
inductive Passed : List Char → Prop
  /-- Nothing is passed over. -/
  | nil : Passed []
  /-- A comment is passed over as a whole. -/
  | comment {content rest : List Char} : ¬ ['-', '-', '>'] <:+: content ++ ['-', '-'] →
      Passed rest → Passed (['<', '!', '-', '-'] ++ (content ++ (['-', '-', '>'] ++ rest)))
  /-- Any other character by itself. -/
  | other {c : Char} {rest : List Char} : (c = '<' → ¬ Begins rest) → Passed rest →
      Passed (c :: rest)

variable {s content rest after : List Char} {c opening : Cursor} {ch : Char}

/-! ## Comments -/

/-- In the text of a comment and the two characters behind it, the comment does not end. -/
theorem not_infix_of_not_infix (h : ¬ ['-', '-'] <:+: content) :
    ¬ ['-', '-', '>'] <:+: content ++ ['-', '-'] := by
  have hlast : ∀ s : List Char, ¬ ['-', '-', '>'] <:+ s ++ ['-'] := by
    rintro s ⟨u, hu⟩
    have hsame := congrArg List.getLast? hu
    simp at hsame
  have hsplit : content ++ ['-', '-'] = (content ++ ['-']) ++ ['-'] := by simp
  rw [hsplit, List.infix_concat_iff, List.infix_concat_iff]
  rintro (hsuffix | hsuffix | hinner)
  · exact hlast _ hsuffix
  · exact hlast _ hsuffix
  · exact h ((List.prefix_append ['-', '-'] ['>']).isInfix.trans hinner)

/-- A comment goes on to the first `-->`. -/
theorem afterComment_append (h : ¬ ['-', '-', '>'] <:+: content ++ ['-', '-']) (offset : Nat)
    (rest : List Char) :
    afterComment ⟨offset, content ++ (['-', '-', '>'] ++ rest)⟩ =
      ⟨offset + content.length + 3, rest⟩ := by
  induction content generalizing offset with
  | nil =>
    rw [afterComment]
    rfl
  | cons ch content ih =>
    have hnot : ¬ ['-', '-', '>'] <:+: content ++ ['-', '-'] :=
      fun hinner ↦ h (hinner.trans (List.suffix_cons ch _).isInfix)
    -- The first three characters are in the text and the two characters behind it.
    have hprefix : ¬ ['-', '-', '>'] <+: ch :: (content ++ (['-', '-', '>'] ++ rest)) := by
      intro hprefix
      have hlong : ch :: (content ++ (['-', '-', '>'] ++ rest)) =
          (ch :: content ++ ['-', '-']) ++ ('>' :: rest) := by simp
      rw [hlong] at hprefix
      exact h (List.prefix_of_prefix_length_le hprefix (List.prefix_append _ _) (by simp)).isInfix
    have hstep : afterComment ⟨offset, ch :: content ++ (['-', '-', '>'] ++ rest)⟩ =
        afterComment ⟨offset + 1, content ++ (['-', '-', '>'] ++ rest)⟩ := by
      rw [List.cons_append, afterComment]
      dsimp only
      rw [if_neg (by rwa [List.isPrefixOf_iff_prefix])]
      rfl
    rw [hstep, ih hnot, List.length_cons]
    congr 1
    omega

/-- A comment ends at the first `-->`, or with the text. -/
theorem afterComment_cases (c : Cursor) :
    (afterComment c).rest = [] ∨
      ∃ content, ¬ ['-', '-', '>'] <:+: content ++ ['-', '-'] ∧
        c.rest = content ++ (['-', '-', '>'] ++ (afterComment c).rest) := by
  fun_induction afterComment c with
  | case1 c hrest => exact Or.inl hrest
  | case2 c first rest hrest hprefix =>
    obtain ⟨behind, hbehind⟩ := List.isPrefixOf_iff_prefix.mp hprefix
    have hskip : (c.skip 3).rest = behind := Cursor.rest_skip_length _ hbehind.symm
    refine Or.inr ⟨[], by decide, ?_⟩
    rw [hskip, ← hbehind, List.nil_append]
  | case3 c first rest hrest hprefix hlt ih =>
    have hskip : (c.skip 1).rest = rest := Cursor.rest_skip_length [first] hrest
    rcases ih with hnil | ⟨content, hcontent, hbehind⟩
    · exact Or.inl hnil
    · refine Or.inr ⟨first :: content, ?_, ?_⟩
      · rw [List.cons_append, List.infix_cons_iff, not_or]
        refine ⟨fun hfirst ↦ hprefix ?_, hcontent⟩
        have hlong : c.rest = first :: (content ++ ['-', '-']) ++
            ('>' :: (afterComment (c.skip 1)).rest) := by
          rw [hrest, ← hskip, hbehind]
          simp
        rw [List.isPrefixOf_iff_prefix, hlong]
        exact hfirst.trans (List.prefix_append _ _)
      · rw [hrest, ← hskip, hbehind]
        rfl

/-! ## The search -/

theorem begins_iff (offset : Nat) (rest : List Char) :
    Begins rest ↔ (Tag.startName? ⟨offset, '<' :: rest⟩).isSome = true ∨
      ['<', '!', '-', '-'].isPrefixOf ('<' :: rest) = true := by
  rw [Tag.startName?, Name.isSome_at?, List.isPrefixOf_iff_prefix, List.cons_prefix_cons]
  simp [Begins, Cursor.skip, Cursor.peek?]

/-- What begins in front of a text begins there whatever follows. -/
theorem Begins.append_right (h : Begins rest) (after : List Char) : Begins (rest ++ after) := by
  rcases h with hstart | hcomment
  · obtain ⟨first, hfirst, hname⟩ := (Option.any_eq_true _ _).mp hstart
    left
    rw [List.head?_append, hfirst]
    exact hname
  · exact Or.inr (hcomment.trans (List.prefix_append rest after))

/-- Whether something begins in front of a text does not depend on what follows the text, if that
goes on with neither a name nor a comment. -/
theorem begins_append_iff (hstart : isNameStart ch = false) (hbang : '!' ≠ ch) (hdash : '-' ≠ ch) :
    Begins (rest ++ ch :: after) ↔ Begins rest := by
  rcases rest with _ | ⟨first, _ | ⟨second, _ | ⟨third, rest⟩⟩⟩
  all_goals simp [Begins, hstart, hbang, hdash]

theorem openingFrom?_of_rest_eq_nil (h : c.rest = []) : openingFrom? c = none := by
  obtain ⟨offset, rest⟩ := c
  cases h
  rw [openingFrom?]

/-- A start tag is where the search ends. -/
theorem openingFrom?_startTag (h : rest.head?.any isNameStart = true) (offset : Nat) :
    openingFrom? ⟨offset, '<' :: rest⟩ = some ⟨offset, '<' :: rest⟩ := by
  have hname : (Tag.startName? ⟨offset, '<' :: rest⟩).isSome = true := by
    rw [Tag.startName?, Name.isSome_at?]
    exact h
  have hcomment : ¬ ['<', '!', '-', '-'].isPrefixOf ('<' :: rest) = true := by
    rintro hprefix
    obtain ⟨behind, hbehind⟩ := List.isPrefixOf_iff_prefix.mp hprefix
    cases hbehind
    have hbang : ¬ isNameStart '!' = true := by decide +kernel
    exact hbang h
  rw [openingFrom?]
  dsimp only
  rw [if_neg hcomment, if_pos ⟨rfl, hname⟩]

/-- The search jumps over a comment. -/
theorem openingFrom?_comment (offset : Nat) (rest : List Char) :
    openingFrom? ⟨offset, ['<', '!', '-', '-'] ++ rest⟩ =
      openingFrom? (afterComment ⟨offset + 4, rest⟩) := by
  rw [openingFrom?]
  rfl

/-- The search goes on by one character where nothing begins. -/
theorem openingFrom?_cons (h : ch = '<' → ¬ Begins rest) (offset : Nat) :
    openingFrom? ⟨offset, ch :: rest⟩ = openingFrom? ⟨offset + 1, rest⟩ := by
  have hcomment : ¬ ['<', '!', '-', '-'].isPrefixOf (ch :: rest) = true := by
    intro hprefix
    obtain ⟨rfl, -⟩ := List.cons_prefix_cons.mp (List.isPrefixOf_iff_prefix.mp hprefix)
    exact h rfl ((begins_iff offset rest).mpr (Or.inr hprefix))
  have htag : ¬ (ch = '<' ∧ (Tag.startName? ⟨offset, ch :: rest⟩).isSome = true) := by
    rintro ⟨rfl, hname⟩
    exact h rfl ((begins_iff offset rest).mpr (Or.inl hname))
  rw [openingFrom?]
  dsimp only
  rw [if_neg hcomment, if_neg htag]
  rfl

/-- Behind what can be passed over, the search finds the tag that begins there. -/
theorem Passed.openingFrom?_eq (h : Passed s) (hafter : after.head?.any isNameStart = true)
    (offset : Nat) :
    openingFrom? ⟨offset, s ++ '<' :: after⟩ = some ⟨offset + s.length, '<' :: after⟩ := by
  induction h generalizing offset with
  | nil => exact openingFrom?_startTag hafter offset
  | @comment content rest hcontent _ ih =>
    simp only [List.append_assoc]
    rw [openingFrom?_comment, afterComment_append hcontent, ih]
    simp only [List.length_append, List.length_cons, List.length_nil]
    congr 2
    omega
  | @other ch rest hch _ ih =>
    have hbegins : ch = '<' → ¬ Begins (rest ++ '<' :: after) := by
      intro heq
      rw [begins_append_iff (by decide +kernel) (by decide) (by decide)]
      exact hch heq
    rw [List.cons_append, openingFrom?_cons hbegins, ih, List.length_cons]
    congr 2
    omega

/-- Whatever the search finds, it has passed over what is before it. -/
theorem exists_passed_of_openingFrom? (h : openingFrom? c = some opening) :
    ∃ s, Passed s ∧ c.rest = s ++ opening.rest := by
  fun_induction openingFrom? c with
  | case1 => cases h
  | case2 c first rest hrest hprefix hlt ih =>
    obtain ⟨behind, hbehind⟩ := List.isPrefixOf_iff_prefix.mp hprefix
    have hskip : (c.skip 4).rest = behind := Cursor.rest_skip_length _ hbehind.symm
    obtain ⟨s, hs, hafter⟩ := ih h
    rcases afterComment_cases (c.skip 4) with hnil | ⟨content, hcontent, hcomment⟩
    · rw [openingFrom?_of_rest_eq_nil hnil] at h
      cases h
    · refine ⟨_, .comment hcontent hs, ?_⟩
      rw [← hbehind, ← hskip, hcomment, hafter]
      simp
  | case3 c first rest hrest hprefix hstart =>
    cases h
    exact ⟨[], .nil, rfl⟩
  | case4 c first rest hrest hprefix hstart hlt ih =>
    have hskip : (c.skip 1).rest = rest := Cursor.rest_skip_length [first] hrest
    obtain ⟨s, hs, hafter⟩ := ih h
    refine ⟨first :: s, .other ?_ hs, ?_⟩
    · rintro rfl hbegins
      have hall := hbegins.append_right opening.rest
      rw [← hafter, hskip, begins_iff c.offset, ← hrest] at hall
      rcases hall with hname | hcomment
      · exact hstart ⟨rfl, hname⟩
      · exact hprefix hcomment
    · rw [hrest, ← hskip, hafter, List.cons_append]

/-! ## The items of a prolog -/

/-- A text with nothing that begins can be passed over, if what follows can be. -/
theorem Passed.append_left (h : ∀ rest, '<' :: rest <:+ s → ¬ Begins (rest ++ after))
    (hafter : Passed after) : Passed (s ++ after) := by
  induction s with
  | nil => exact hafter
  | cons ch s ih =>
    refine .other ?_ (ih fun rest hrest ↦ h rest (hrest.trans (List.suffix_cons ch s)))
    rintro rfl
    exact h s List.suffix_rfl

/-- Of a single character nothing need be known, unless it is a `<`. -/
theorem Passed.cons (h : ch ≠ '<') (hrest : Passed rest) : Passed (ch :: rest) :=
  .other (fun heq ↦ absurd heq h) hrest

end Root

namespace PrologItem

/-- In an instruction, nothing looks like the beginning of a start tag or of a comment. -/
def BeginsNothing : PrologItem → Prop
  | blanks _ _ | comment _ _ => True
  | instruction content _ => ∀ rest, '<' :: rest <:+ content → ¬ Root.Begins rest

variable {item : PrologItem} {after : List Char}

/-- An item can be passed over if nothing begins in it. -/
theorem BeginsNothing.passed_append (h : item.BeginsNothing) (hafter : Root.Passed after) :
    Root.Passed (item.chars ++ after) := by
  cases item with
  | blanks s hs =>
    have hnot : ¬ Text.isBlank '<' = true := by decide +kernel
    exact .append_left (fun rest hrest ↦ absurd (hs '<' (hrest.subset List.mem_cons_self)) hnot)
      hafter
  | comment content hcontent =>
    have hchars : (comment content hcontent).chars ++ after =
        ['<', '!', '-', '-'] ++ (content ++ (['-', '-', '>'] ++ after)) := by simp [chars]
    rw [hchars]
    exact .comment (Root.not_infix_of_not_infix hcontent) hafter
  | instruction content hcontent =>
    have hchars : (instruction content hcontent).chars ++ after =
        '<' :: '?' :: (content ++ '?' :: '>' :: after) := by simp [chars]
    have hmark : ∀ rest, ¬ Root.Begins ('?' :: rest) := by
      rintro rest (hstart | hcomment)
      · have hnot : ¬ isNameStart '?' = true := by decide +kernel
        exact hnot hstart
      · exact absurd (List.cons_prefix_cons.mp hcomment).1 (by decide)
    rw [hchars]
    refine .other (fun _ ↦ hmark _) (.cons (by decide) (.append_left (fun rest hrest ↦ ?_)
      (.cons (by decide) (.cons (by decide) hafter))))
    rw [Root.begins_append_iff (by decide +kernel) (by decide) (by decide)]
    exact h rest hrest

/-- A prolog can be passed over if nothing begins in its items. -/
theorem passed_flatMap {items : List PrologItem} (h : ∀ item ∈ items, item.BeginsNothing) :
    Root.Passed (items.flatMap chars) := by
  induction items with
  | nil => exact .nil
  | cons item items ih =>
    rw [List.flatMap_cons]
    exact (h item List.mem_cons_self).passed_append
      (ih fun other hother ↦ h other (List.mem_cons_of_mem item hother))

end PrologItem

namespace Root

variable {after text : List Char}

/-- The root element begins with a tag behind a text just if that text can be passed over. -/
theorem opening?_eq_some_iff (before : List Char) (hafter : after.head?.any isNameStart = true) :
    opening? (before ++ '<' :: after) = some ⟨before.length, '<' :: after⟩ ↔ Passed before := by
  constructor
  · intro h
    obtain ⟨s, hs, heq⟩ := exists_passed_of_openingFrom? h
    exact List.append_cancel_right heq ▸ hs
  · intro h
    have hopening := h.openingFrom?_eq hafter 0
    rwa [Nat.zero_add] at hopening

theorem opening?_of_name? {n : Name} (h : name? text = some n) {start : Nat}
    (hstart : n.start = start + 1) : opening? text = some (Indexed.placeAt text start) := by
  obtain ⟨opening, hopening, hname⟩ := Option.bind_eq_some_iff.mp h
  have hpeek := peek?_of_openingFrom? hopening
  have hoffset : opening.offset + 1 = start + 1 := by
    rw [← hstart, (Name.at?_eq_some hname).1, Cursor.offset_skip_one hpeek]
  rw [hopening, ← Indexed.placeAt_offset (isIn_opening? hopening), Nat.succ.inj hoffset]

end Root

end Markup

namespace Family

open Markup

/-- The errors about the root element are about the tag that begins at an offset and has a name. -/
structure ShowsRoot (document : Document) (start : Nat) (name : List Char) : Prop where
  /-- The name of the root element is found there. -/
  name?_eq : Root.name? document.chars = some ⟨start + 1, name⟩
  /-- If the entities of the element do not match, its name is shown. -/
  mismatch : ∀ (location : Event.Location) (offset : Nat) (arguments : List Argument),
    location.errorOffset? = some offset →
      xml.Shows document location "MarkupEntityMismatch" arguments
        ⟨start + 1, start + 1 + name.length⟩
  /-- If it is not declared, too, wherever that is reported. -/
  notDeclared : ∀ (location : Event.Location) (arguments : List Argument),
    schema.Shows document location "cvc-elt.1.a" arguments ⟨start + 1, start + 1 + name.length⟩
  /-- A schema that is not found is the value of one of its attributes. -/
  schemaNotFound : ∀ (location : Event.Location) (arguments : List Argument),
    let attributes := Tag.attributes (Indexed.placeAt document.chars start)
    schema.span? document.chars location "schema_reference.4" arguments =
      ((attributes.find? (·.name.answersTo "schemaLocation".toList)).or
        (attributes.find? (·.name.answersTo "noNamespaceSchemaLocation".toList))).bind (·.value)

variable {items : List PrologItem} {name after : List Char} {document : Document} {start : Nat}

/-- All errors about the root element follow the search for its tag. -/
theorem showsRoot_of_opening? (hname : IsName name) (hafter : EndsName after)
    (h : Root.opening? document.chars = some ⟨start, '<' :: (name ++ after)⟩) :
    ShowsRoot document start name := by
  have hplace : Indexed.placeAt document.chars start = ⟨start, '<' :: (name ++ after)⟩ :=
    Indexed.placeAt_offset (Root.isIn_opening? h)
  have hfound : Root.name? document.chars = some ⟨start + 1, name⟩ := by
    rw [Root.name?, h]
    exact Name.at?_append hname hafter (start + 1)
  refine ⟨hfound, ?_, ?_, ?_⟩
  · intro location offset arguments hoffset
    have hkey : WellFormedness.ofKey? "MarkupEntityMismatch" = some .markupEntityMismatch := by
      decide +kernel
    refine shows_of_span? ?_
    simp only [span?, hkey, hoffset, WellFormedness.span?, Option.bind_eq_bind, Option.bind_some,
      hfound, Option.map_some]
    rfl
  · intro location arguments
    have hkey : Validity.ofKey? "cvc-elt.1.a" = some .elementNotDeclared := by decide +kernel
    refine shows_of_span? ?_
    simp only [span?, hkey, Validity.span?, Option.bind_eq_bind, Option.bind_some, hfound,
      Option.map_some]
    rfl
  · intro location arguments
    have hkey : Validity.ofKey? "schema_reference.4" = some .schemaNotFound := by decide +kernel
    simp only [span?, hkey, Validity.span?, Validity.schemaReference?, Root.attribute?, h, hplace,
      Option.bind_eq_bind, Option.bind_some]

/-- Behind a prolog, the errors about the root element are about it just if the search passes over
the prolog; and it does if nothing begins in the instructions. -/
theorem showsRoot_iff (hname : IsName name) (hafter : EndsName after)
    (hdocument : document.chars = items.flatMap PrologItem.chars ++ '<' :: (name ++ after)) :
    (ShowsRoot document (items.flatMap PrologItem.chars).length name ↔
      Root.Passed (items.flatMap PrologItem.chars)) ∧
    ((∀ item ∈ items, item.BeginsNothing) →
      ShowsRoot document (items.flatMap PrologItem.chars).length name) := by
  have hopening := Root.opening?_eq_some_iff (items.flatMap PrologItem.chars)
    (hname.any_head?_append after)
  rw [← hdocument] at hopening
  have hshows : Root.Passed (items.flatMap PrologItem.chars) →
      ShowsRoot document (items.flatMap PrologItem.chars).length name :=
    fun hpassed ↦ showsRoot_of_opening? hname hafter (hopening.mpr hpassed)
  refine ⟨⟨fun h ↦ hopening.mp ?_, hshows⟩, fun h ↦ hshows (PrologItem.passed_flatMap h)⟩
  rw [Root.opening?_of_name? h.name?_eq rfl, hdocument, Indexed.placeAt_append]

/-- A tag and the beginning of a comment in a comment make no difference, and neither does a `<` in
an instruction that no name follows. -/
theorem showsRoot_behind_markup_in_comment :
    let document : Document := .ofString "<?x 1<2?>\n<!--<b><!-?>--><a/>"
    schema.Shows document ⟨0, 0, 0⟩ "cvc-elt.1.a" [.str "a"] ⟨26, 27⟩ := by
  intro document
  have ha : IsName ['a'] := by decide +kernel
  have hbreak : ∀ c ∈ ['\n'], Text.isBlank c = true := List.forall_mem_singleton.mpr rfl
  let items : List PrologItem :=
    [.instruction ['x', ' ', '1', '<', '2'] (by decide), .blanks ['\n'] hbreak,
      .comment ['<', 'b', '>', '<', '!', '-', '?', '>'] (by decide)]
  have hdocument : document.chars =
      items.flatMap PrologItem.chars ++ '<' :: (['a'] ++ ['/', '>']) := rfl
  have hnothing : ∀ item ∈ items, item.BeginsNothing := by
    intro item hitem
    rcases List.mem_cons.mp hitem with rfl | hitem
    · intro rest hrest
      have hrest : rest = ['2'] := by simpa [List.suffix_cons_iff] using hrest
      rw [hrest]
      decide +kernel
    · rcases List.mem_cons.mp hitem with rfl | hitem
      · trivial
      · rw [List.mem_singleton.mp hitem]
        trivial
  exact ((showsRoot_iff ha (endsName_cons (by decide)) hdocument).2 hnothing).notDeclared _ _

/-- A tag in an instruction is taken for the root element. -/
theorem shows_tag_in_instruction :
    let content := ['p', ' ', '<', 'q']
    let document : Document := .ofString "<?p <q?><a/>"
    ∃ h : ¬ ['?', '>'] <:+: content, document.chars =
        [PrologItem.instruction content h].flatMap PrologItem.chars ++
          '<' :: (['a'] ++ ['/', '>']) ∧
      IsName ['a'] ∧ EndsName ['/', '>'] ∧
      ¬ ∃ range, document.positionAt 9 = .ok range.start ∧
        document.positionAt 10 = .ok range.stop ∧
        schema.resolve? document ⟨12, 1, 12⟩ "cvc-elt.1.a" [.str "a"] = some range := by
  intro content document
  have hshown : schema.resolve? document ⟨12, 1, 12⟩ "cvc-elt.1.a" [.str "a"] =
      some ⟨⟨0, 5⟩, ⟨0, 6⟩⟩ := by decide +kernel
  have hroot : document.positionAt 9 = .ok ⟨0, 9⟩ := by decide +kernel
  exact ⟨by decide, by decide, by decide +kernel, endsName_cons (by decide),
    not_exists_range_of_resolve? hshown hroot (by decide)⟩

end Family

end XmlDiagnostics
