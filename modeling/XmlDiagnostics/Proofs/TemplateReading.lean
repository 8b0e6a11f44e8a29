import XmlDiagnostics.Message.Formatter
import XmlDiagnostics.Proofs.Escaping

/-!
# Reading templates

A template is read before any argument is known.  `Reads` says what it is read as: a list of
pieces, each a fixed text or the number of an argument.  Every template is read in exactly one
way (`exists_reads`, `Reads.unique`), and this depends on how many arguments there are, but not
on what they say.

The message is then the pieces one after the other, with the texts of the arguments in their
places (`Reads.expandFrom_eq`).  So what an argument says is never read again: braces and quotes
in it are only characters, and nothing around it changes because of them.
-/

namespace XmlDiagnostics

namespace Text

/-- A text has one first place of a character. -/
theorem eq_and_eq_of_append_cons_eq {c : Char} {before before' after after' : List Char}
    (h : c ∉ before) (h' : c ∉ before')
    (heq : before ++ c :: after = before' ++ c :: after') : before = before' ∧ after = after' := by
  have hbefore : before = before' := by
    rw [← takeWhile_ne_append_cons after h, heq, takeWhile_ne_append_cons after' h']
  subst hbefore
  exact ⟨rfl, (List.cons.inj (List.append_cancel_left heq)).2⟩

end Text

namespace Message

/-- A piece of a template, read for messages with `n` arguments. -/
inductive Piece (n : Nat) where
  /-- Characters that stand for themselves. -/
  | text (s : List Char)
  /-- The place of an argument. -/
  | argument (k : Fin n)
deriving DecidableEq

/-- The pieces in order, with given texts in the places of the arguments. -/
def Piece.fill {n : Nat} (texts : Fin n → List Char) (pieces : List (Piece n)) : List Char :=
  pieces.flatMap fun
    | text s => s
    | argument k => texts k

variable {n : Nat} {quoted : Bool} {t : List Char} {pieces pieces' : List (Piece n)}

/-- How a template is read from left to right.  The flag says whether the reading begins inside
a quoted stretch. -/
inductive Reads (n : Nat) : Bool → List Char → List (Piece n) → Prop
  /-- Nothing is left to read. -/
  | nil {quoted : Bool} : Reads n quoted [] []
  /-- Two quotes in a row are one quote, inside a stretch and outside. -/
  | twoQuotes {quoted : Bool} {rest : List Char} {pieces : List (Piece n)} :
      Reads n quoted rest pieces → Reads n quoted ('\'' :: '\'' :: rest) (.text ['\''] :: pieces)
  /-- A quote before anything else only starts or ends a stretch. -/
  | quote {quoted : Bool} {rest : List Char} {pieces : List (Piece n)} :
      rest.head? ≠ some '\'' → Reads n (!quoted) rest pieces → Reads n quoted ('\'' :: rest) pieces
  /-- Outside a stretch a group goes from an opening brace to the next closing one.  If what is
  in it is the number of an argument, blanks around it aside, it is the place of that
  argument. -/
  | argument {group rest : List Char} {k : Fin n} {pieces : List (Piece n)} :
      '}' ∉ group → Text.numeral? (Text.trim group) = some k.val → Reads n false rest pieces →
      Reads n false ('{' :: (group ++ '}' :: rest)) (.argument k :: pieces)
  /-- Any other group stands for itself. -/
  | group {group rest : List Char} {pieces : List (Piece n)} :
      '}' ∉ group → (∀ k : Fin n, Text.numeral? (Text.trim group) ≠ some k.val) →
      Reads n false rest pieces →
      Reads n false ('{' :: (group ++ '}' :: rest)) (.text ('{' :: group ++ ['}']) :: pieces)
  /-- From an opening brace that is never closed, all that is left stands for itself. -/
  | unclosed {rest : List Char} :
      '}' ∉ rest → Reads n false ('{' :: rest) [.text ('{' :: rest)]
  /-- Any other character stands for itself, and inside a stretch an opening brace too. -/
  | literal {quoted : Bool} {c : Char} {rest : List Char} {pieces : List (Piece n)} :
      c ≠ '\'' → (c = '{' → quoted = true) → Reads n quoted rest pieces →
      Reads n quoted (c :: rest) (.text [c] :: pieces)

/-! ## One reading for each template -/

/-- An opening brace outside quoted stretches can be read. -/
theorem exists_reads_brace {rest : List Char}
    (ih : ∀ after : List Char, after.length < rest.length → ∃ pieces, Reads n false after pieces) :
    ∃ pieces, Reads n false ('{' :: rest) pieces := by
  by_cases hclosed : '}' ∈ rest
  · obtain ⟨group, after, rfl, hgroup⟩ := List.eq_append_cons_of_mem hclosed
    obtain ⟨pieces, hafter⟩ := ih after (by simp only [List.length_append, List.length_cons]; omega)
    by_cases hnumber : ∃ k : Fin n, Text.numeral? (Text.trim group) = some k.val
    · obtain ⟨k, hk⟩ := hnumber
      exact ⟨_, .argument hgroup hk hafter⟩
    · exact ⟨_, .group hgroup (fun k hk ↦ hnumber ⟨k, hk⟩) hafter⟩
  · exact ⟨_, .unclosed hclosed⟩

/-- Every template can be read. -/
theorem exists_reads (n : Nat) (quoted : Bool) (t : List Char) :
    ∃ pieces, Reads n quoted t pieces := by
  induction hlength : t.length using Nat.strongRecOn generalizing quoted t with
  | ind length ih =>
    subst hlength
    cases t with
    | nil => exact ⟨[], .nil⟩
    | cons c rest =>
      have hrest : ∀ quoted, ∃ pieces, Reads n quoted rest pieces :=
        fun quoted ↦ ih rest.length (Nat.lt_succ_self _) quoted rest rfl
      by_cases hquote : c = '\''
      · subst hquote
        cases rest with
        | nil => exact ⟨_, .quote (by simp) .nil⟩
        | cons d after =>
          by_cases hnext : d = '\''
          · subst hnext
            obtain ⟨pieces, hafter⟩ :=
              ih after.length (by simp only [List.length_cons]; omega) quoted after rfl
            exact ⟨_, .twoQuotes hafter⟩
          · obtain ⟨pieces, hpieces⟩ := hrest (!quoted)
            exact ⟨_, .quote (fun heq ↦ hnext (Option.some.inj heq)) hpieces⟩
      · by_cases hbrace : c = '{' ∧ quoted = false
        · obtain ⟨rfl, rfl⟩ := hbrace
          exact exists_reads_brace fun after hafter ↦
            ih after.length (Nat.lt_succ_of_lt hafter) false after rfl
        · obtain ⟨pieces, hpieces⟩ := hrest quoted
          refine ⟨_, .literal hquote (fun hc ↦ ?_) hpieces⟩
          cases quoted with
          | true => rfl
          | false => exact absurd ⟨hc, rfl⟩ hbrace

/-- What a group can be read as: the place of an argument if it is the number of one, and its
characters if it is not. -/
theorem Reads.of_group {group rest : List Char} (hgroup : '}' ∉ group)
    (h : Reads n false ('{' :: (group ++ '}' :: rest)) pieces) :
    ∃ later, Reads n false rest later ∧
      ((∃ k : Fin n, Text.numeral? (Text.trim group) = some k.val ∧
          pieces = .argument k :: later) ∨
        ((∀ k : Fin n, Text.numeral? (Text.trim group) ≠ some k.val) ∧
          pieces = .text ('{' :: group ++ ['}']) :: later)) := by
  generalize htemplate : '{' :: (group ++ '}' :: rest) = template at h
  cases h with
  | nil => cases htemplate
  | twoQuotes _ => cases (List.cons.inj htemplate).1
  | quote _ _ => cases (List.cons.inj htemplate).1
  | argument hgroup' hk hrest =>
    obtain ⟨rfl, rfl⟩ :=
      Text.eq_and_eq_of_append_cons_eq hgroup hgroup' (List.cons.inj htemplate).2
    exact ⟨_, hrest, Or.inl ⟨_, hk, rfl⟩⟩
  | group hgroup' hnot hrest =>
    obtain ⟨rfl, rfl⟩ :=
      Text.eq_and_eq_of_append_cons_eq hgroup hgroup' (List.cons.inj htemplate).2
    exact ⟨_, hrest, Or.inr ⟨hnot, rfl⟩⟩
  | unclosed hopen =>
    rw [← (List.cons.inj htemplate).2] at hopen
    exact absurd (List.mem_append_right _ List.mem_cons_self) hopen
  | literal _ hbrace _ => cases hbrace (List.cons.inj htemplate).1.symm

/-- What a template is read as is one list of pieces. -/
theorem Reads.unique (h : Reads n quoted t pieces) (h' : Reads n quoted t pieces') :
    pieces = pieces' := by
  induction h generalizing pieces' with
  | nil =>
    cases h'
    rfl
  | twoQuotes _ ih =>
    cases h' with
    | twoQuotes hrest => rw [ih hrest]
    | quote hnext _ => exact absurd rfl hnext
    | literal hquote _ _ => exact absurd rfl hquote
  | quote hnext _ ih =>
    cases h' with
    | twoQuotes _ => exact absurd rfl hnext
    | quote _ hrest => exact ih hrest
    | literal hquote _ _ => exact absurd rfl hquote
  | argument hgroup hk _ ih =>
    obtain ⟨later, hlater, ⟨k', hk', rfl⟩ | ⟨hnot, -⟩⟩ := h'.of_group hgroup
    · rw [ih hlater, Fin.ext (Option.some.inj (hk.symm.trans hk'))]
    · exact absurd hk (hnot _)
  | group hgroup hnot _ ih =>
    obtain ⟨later, hlater, ⟨k', hk', -⟩ | ⟨-, rfl⟩⟩ := h'.of_group hgroup
    · exact absurd hk' (hnot k')
    · rw [ih hlater]
  | unclosed hopen =>
    cases h' with
    | argument _ _ _ => exact absurd (List.mem_append_right _ List.mem_cons_self) hopen
    | group _ _ _ => exact absurd (List.mem_append_right _ List.mem_cons_self) hopen
    | unclosed _ => rfl
    | literal _ hbrace _ => cases hbrace rfl
  | literal hquote hbrace _ ih =>
    cases h' with
    | twoQuotes _ => exact absurd rfl hquote
    | quote _ _ => exact absurd rfl hquote
    | argument _ _ _ => cases hbrace rfl
    | group _ _ _ => cases hbrace rfl
    | unclosed _ => cases hbrace rfl
    | literal _ _ hrest => rw [ih hrest]

/-! ## The message of a reading -/

section Fill

variable (texts : Fin n → List Char)

@[simp] theorem Piece.fill_nil : fill texts [] = [] := rfl

@[simp] theorem Piece.fill_text_cons (s : List Char) (pieces : List (Piece n)) :
    fill texts (.text s :: pieces) = s ++ fill texts pieces := rfl

@[simp] theorem Piece.fill_argument_cons (k : Fin n) (pieces : List (Piece n)) :
    fill texts (.argument k :: pieces) = texts k ++ fill texts pieces := rfl

end Fill

variable {arguments : List Argument}

theorem expandGroup_of_numeral? {group : List Char} {k : Fin arguments.length}
    (h : Text.numeral? (Text.trim group) = some k.val) :
    expandGroup arguments group = (arguments.get k).chars := by
  have hargument : argumentAt? arguments group = some (arguments.get k) := by
    rw [argumentAt?, h, Option.bind_some]
    exact List.getElem?_eq_getElem k.isLt
  rw [expandGroup, hargument]

theorem expandGroup_of_forall_ne {group : List Char}
    (h : ∀ k : Fin arguments.length, Text.numeral? (Text.trim group) ≠ some k.val) :
    expandGroup arguments group = '{' :: group ++ ['}'] := by
  have hnone : argumentAt? arguments group = none := by
    rw [argumentAt?, Option.bind_eq_none_iff]
    intro number hnumber
    rw [List.getElem?_eq_none_iff, ← Nat.not_lt]
    exact fun hlt ↦ h ⟨number, hlt⟩ hnumber
  rw [expandGroup, hnone]

/-- The message is what was read, with the texts of the arguments in their places. -/
theorem Reads.expandFrom_eq {pieces : List (Piece arguments.length)}
    (h : Reads arguments.length quoted t pieces) :
    expandFrom arguments quoted t = Piece.fill (fun k ↦ (arguments.get k).chars) pieces := by
  induction h with
  | nil => exact expandFrom_nil arguments _
  | twoQuotes _ ih =>
    rw [expandFrom_two_quotes, ih]
    rfl
  | quote hnext _ ih => rw [expandFrom_quote arguments _ hnext, ih]
  | argument hgroup hk _ ih =>
    rw [expandFrom_group arguments _ hgroup, expandGroup_of_numeral? hk, ih,
      Piece.fill_argument_cons]
  | group hgroup hnot _ ih =>
    rw [expandFrom_group arguments _ hgroup, expandGroup_of_forall_ne hnot, ih,
      Piece.fill_text_cons]
  | unclosed hopen =>
    rw [expandFrom_unclosed arguments hopen, Piece.fill_text_cons, Piece.fill_nil,
      List.append_nil]
  | literal hquote hbrace _ ih =>
    rw [expandFrom_cons arguments _ hquote hbrace, ih]
    rfl

/-! ## Formatters -/

/-- The texts of `n` arguments by number. -/
def textsOf (arguments : List Argument) (h : arguments.length = n) (k : Fin n) : List Char :=
  (arguments.get (k.cast h.symm)).chars

/-- With which template and with which arguments a formatter writes the message for a key: those
that it is given, except that the schema formatter puts the list of expected elements in the
place of the argument that names them. -/
inductive Formatter.Writes : Formatter → String → List Argument → String → List Argument → Prop
  /-- A catalog has a template for the key. -/
  | catalog {templates : Catalog} {key template : String} {arguments : List Argument} :
      templates.find? key = some template →
      Writes (.catalog templates) key arguments template arguments
  /-- The sentence for the key ends in a list of expected elements. -/
  | expected {key template : String} {element expected : Argument} {others : List Argument} :
      expectedElementTemplates.find? key = some template →
      Writes .schema key (element :: expected :: others) template
        (element :: ExpectedElements.rewrite expected :: others)
  /-- There is no such sentence, or no argument for the list. -/
  | schema {key template : String} {arguments : List Argument} :
      expectedElementTemplates.find? key = none ∨ arguments.length < 2 →
      Catalog.schema.find? key = some template →
      Writes .schema key arguments template arguments

theorem Formatter.Writes.format_eq {formatter : Formatter} {key template : String}
    {shown : List Argument} (h : formatter.Writes key arguments template shown)
    (locale : Locale) : formatter.format locale key arguments = expand template shown := by
  cases h with
  | catalog hfind =>
    show Catalog.format _ key arguments = _
    rw [Catalog.format, hfind]
  | expected hfind =>
    simp only [format, formatSchema, hfind]
  | schema hplain hfind =>
    show formatSchema key arguments = _
    have hcatalog : Catalog.schema.format key arguments = expand template arguments := by
      rw [Catalog.format, hfind]
    unfold formatSchema
    split
    · rename_i hexpected
      rcases hplain with hnone | hshort
      · rw [hnone] at hexpected
        cases hexpected
      · simp only [List.length_cons] at hshort
        omega
    · exact hcatalog

/-- **Templates are read once, and arguments never.**  For every template and every number of
arguments there is exactly one list of pieces that it is read as.  Whatever the arguments are,
if there are so many of them, expanding the template gives these pieces with the texts of the
arguments in their places, character by character; and so does every formatter that writes a
message with this template. -/
theorem expand_fills_reading (template : String) (n : Nat) :
    ∃ pieces : List (Piece n),
      (∀ pieces', Reads n false template.toList pieces' ↔ pieces' = pieces) ∧
      (∀ (arguments : List Argument) (h : arguments.length = n),
        expand template arguments = String.ofList (Piece.fill (textsOf arguments h) pieces)) ∧
      ∀ (formatter : Formatter) (locale : Locale) (key : String) (arguments shown : List Argument)
        (h : shown.length = n), formatter.Writes key arguments template shown →
        formatter.format locale key arguments =
          String.ofList (Piece.fill (textsOf shown h) pieces) := by
  obtain ⟨pieces, hreads⟩ := exists_reads n false template.toList
  have hexpand : ∀ (arguments : List Argument) (h : arguments.length = n),
      expand template arguments = String.ofList (Piece.fill (textsOf arguments h) pieces) := by
    rintro arguments rfl
    rw [expand, hreads.expandFrom_eq]
    rfl
  refine ⟨pieces, fun pieces' ↦ ⟨fun h ↦ h.unique hreads, ?_⟩, hexpand, ?_⟩
  · rintro rfl
    exact hreads
  · intro formatter locale key arguments shown h hwrites
    rw [hwrites.format_eq, hexpand shown h]

/-- Braces in quotes, blanks and a sign around a number, a number that is too large, and a brace
that is not closed.  The arguments look like places and quotes themselves. -/
theorem expand_fills_reading_of_braces :
    let template := "{0}'{0}'{ +1 }{2}\x7ba"
    let arguments : List Argument := [.str "{1}'", .str "''{0}"]
    let pieces : List (Piece 2) :=
      [.argument 0, .text ['{'], .text ['0'], .text ['}'], .argument 1, .text ['{', '2', '}'],
        .text ['{', 'a']]
    Reads 2 false template.toList pieces ∧
      Formatter.Writes (.catalog ⟨[("key", template)]⟩) "key" arguments template arguments ∧
      expand template arguments = "{1}'{0}''{0}{2}\x7ba" ∧
      Formatter.format (.catalog ⟨[("key", template)]⟩) ⟨"en"⟩ "key" arguments =
        "{1}'{0}''{0}{2}\x7ba" := by
  intro template arguments pieces
  have hopen : Reads 2 false ['{', 'a'] [.text ['{', 'a']] := .unclosed (by decide)
  have hlarge := Reads.group (show '}' ∉ ['2'] by decide) (by decide) hopen
  have hsigned := Reads.argument (show '}' ∉ [' ', '+', '1', ' '] by decide)
    (show _ = some (1 : Fin 2).val by decide) hlarge
  have hquoted := Reads.literal (show '{' ≠ '\'' by decide) (fun _ ↦ rfl)
    (.literal (show '0' ≠ '\'' by decide) (fun _ ↦ rfl)
      (.literal (show '}' ≠ '\'' by decide) (fun _ ↦ rfl) (.quote (by decide) hsigned)))
  have hfirst := Reads.argument (show '}' ∉ ['0'] by decide)
    (show _ = some (0 : Fin 2).val by decide) (.quote (by decide) hquoted)
  have hreads : Reads 2 false template.toList pieces := by
    have hchars : template.toList = ['{', '0', '}', '\'', '{', '0', '}', '\'', '{', ' ', '+', '1',
      ' ', '}', '{', '2', '}', '{', 'a'] := by decide
    rw [hchars]
    exact hfirst
  have hwrites : Formatter.Writes (.catalog ⟨[("key", template)]⟩) "key" arguments template
      arguments := .catalog (by decide)
  obtain ⟨pieces', hunique, hexpand, hformat⟩ := expand_fills_reading template 2
  cases (hunique pieces).mp hreads
  refine ⟨hreads, hwrites, (hexpand arguments rfl).trans (by decide), ?_⟩
  exact (hformat _ _ _ arguments arguments rfl hwrites).trans (by decide)

end Message

end XmlDiagnostics
