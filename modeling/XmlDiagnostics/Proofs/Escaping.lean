import XmlDiagnostics.Message.Template

/-!
# Writing templates

`expand` reads templates, and here they are written.  `Parts` are texts with arguments between
them, `Parts.template` is a template for them, and expanding it gives the texts with the
arguments in their places (`expand_template`).  So there is a template for every message,
whatever quotes and braces it has.

What makes this delicate is that two quotes in a row are one quote that is meant, wherever they
stand.  A quote that starts or ends a stretch must therefore not come to stand before another
one.  `escape` starts the only stretch of a text just before a brace, and ends it where the
text ends: there a template goes on with a brace, or not at all.

The induction is `expandFrom_doubleQuotes`.  It holds inside a quoted stretch for all texts,
and outside for texts without an opening brace.
-/

namespace XmlDiagnostics

namespace Text

variable {c : Char} {before : List Char} (after : List Char)

theorem takeWhile_ne_append_cons (h : c ∉ before) :
    (before ++ c :: after).takeWhile (· ≠ c) = before := by
  rw [List.takeWhile_append_of_pos fun a ha ↦ by simpa using ne_of_mem_of_not_mem ha h,
    List.takeWhile_cons_of_neg (by simp), List.append_nil]

theorem dropWhile_ne_append_cons (h : c ∉ before) :
    (before ++ c :: after).dropWhile (· ≠ c) = c :: after := by
  rw [List.dropWhile_append_of_pos fun a ha ↦ by simpa using ne_of_mem_of_not_mem ha h,
    List.dropWhile_cons_of_neg (by simp)]

end Text

namespace Message

/-! ## Templates, one step at a time -/

section Steps

variable (arguments : List Argument) (quoted : Bool)

@[simp] theorem expandFrom_nil : expandFrom arguments quoted [] = [] := by
  rw [expandFrom]

/-- Two quotes in a row are one quote that is meant. -/
theorem expandFrom_two_quotes (rest : List Char) :
    expandFrom arguments quoted ('\'' :: '\'' :: rest) =
      '\'' :: expandFrom arguments quoted rest := by
  rw [expandFrom]

/-- Any other quote starts or ends a quoted stretch. -/
theorem expandFrom_quote {rest : List Char} (h : rest.head? ≠ some '\'') :
    expandFrom arguments quoted ('\'' :: rest) = expandFrom arguments (!quoted) rest := by
  rw [expandFrom]
  rintro rest' rfl
  exact h rfl

/-- Other characters stand for themselves, an opening brace only in a quoted stretch. -/
theorem expandFrom_cons {quoted : Bool} {c : Char} (rest : List Char) (hquote : c ≠ '\'')
    (hbrace : c = '{' → quoted = true) :
    expandFrom arguments quoted (c :: rest) = c :: expandFrom arguments quoted rest := by
  have hliteral : ¬ (c = '{' ∧ quoted = false) := by
    rintro ⟨hc, hquoted⟩
    rw [hbrace hc] at hquoted
    cases hquoted
  rw [expandFrom, if_neg hliteral]
  · intro rest' hc
    exact absurd hc hquote
  · exact hquote

/-- Outside quoted stretches an opening brace begins a group, which goes up to the next closing
brace. -/
theorem expandFrom_group {group : List Char} (rest : List Char) (h : '}' ∉ group) :
    expandFrom arguments false ('{' :: (group ++ '}' :: rest)) =
      expandGroup arguments group ++ expandFrom arguments false rest := by
  have hdrop := Text.dropWhile_ne_append_cons rest h
  rw [expandFrom, if_pos ⟨rfl, rfl⟩]
  · split
    · rename_i hnil
      rw [hdrop] at hnil
      cases hnil
    · rename_i after hafter
      rw [hdrop] at hafter
      cases hafter
      rw [Text.takeWhile_ne_append_cons rest h]
  · intro rest' hc
    exact absurd hc (by decide)
  · decide

/-- Outside quoted stretches an opening brace that is never closed stands for itself, with all
that is left. -/
theorem expandFrom_unclosed {rest : List Char} (h : '}' ∉ rest) :
    expandFrom arguments false ('{' :: rest) = '{' :: rest := by
  have hdrop : (rest ++ []).dropWhile (· ≠ '}') = [] :=
    List.dropWhile_append_of_pos fun c hc ↦ by simpa using ne_of_mem_of_not_mem hc h
  rw [List.append_nil] at hdrop
  rw [expandFrom, if_pos ⟨rfl, rfl⟩]
  · split
    · rfl
    · rename_i hcons
      rw [hdrop] at hcons
      cases hcons
  · intro rest' hc
    exact absurd hc (by decide)
  · decide

end Steps

/-! ## Texts -/

/-- A text with each of its quotes written twice. -/
def doubleQuotes (s : List Char) : List Char :=
  s.flatMap fun c ↦ if c = '\'' then ['\'', '\''] else [c]

/-- The part of a template that gives a text: its quotes are written twice, and if it has an
opening brace, one more quote stands before the first of them and one at the end. -/
def escape (s : List Char) : List Char :=
  if '{' ∈ s then
    doubleQuotes (s.takeWhile (· ≠ '{')) ++
      '\'' :: (doubleQuotes (s.dropWhile (· ≠ '{')) ++ ['\''])
  else doubleQuotes s

theorem escape_of_not_mem {s : List Char} (h : '{' ∉ s) : escape s = doubleQuotes s :=
  if_neg h

/-- A text is quoted from its first opening brace on. -/
theorem escape_append_brace {before : List Char} (after : List Char) (h : '{' ∉ before) :
    escape (before ++ '{' :: after) =
      doubleQuotes before ++ '\'' :: (doubleQuotes ('{' :: after) ++ ['\'']) := by
  rw [escape, if_pos (by simp), Text.takeWhile_ne_append_cons after h,
    Text.dropWhile_ne_append_cons after h]

variable (arguments : List Argument)

/-- A text with its quotes written twice gives the text, whatever follows.  Where it has an
opening brace, this needs a quoted stretch. -/
theorem expandFrom_doubleQuotes {quoted : Bool} {s : List Char} (rest : List Char)
    (h : '{' ∈ s → quoted = true) :
    expandFrom arguments quoted (doubleQuotes s ++ rest) =
      s ++ expandFrom arguments quoted rest := by
  induction s with
  | nil => rfl
  | cons c s ih =>
    have hs := ih fun hmem ↦ h (List.mem_cons_of_mem c hmem)
    rw [doubleQuotes, List.flatMap_cons, ← doubleQuotes, List.append_assoc]
    by_cases hc : c = '\''
    · rw [if_pos hc, hc]
      exact (expandFrom_two_quotes arguments quoted _).trans (congrArg _ hs)
    · rw [if_neg hc]
      have hbrace : c = '{' → quoted = true := fun heq ↦ h (by rw [heq]; exact List.mem_cons_self)
      exact (expandFrom_cons arguments _ hc hbrace).trans (congrArg _ hs)

/-- An escaped text gives the text, if what follows does not begin with a quote. -/
theorem expandFrom_escape (s : List Char) {rest : List Char} (hrest : rest.head? ≠ some '\'') :
    expandFrom arguments false (escape s ++ rest) = s ++ expandFrom arguments false rest := by
  by_cases hs : '{' ∈ s
  · obtain ⟨before, after, rfl, hbefore⟩ := List.eq_append_cons_of_mem hs
    -- The stretch begins with the brace, so the quote that starts it stands alone.
    have hstart : (doubleQuotes ('{' :: after) ++ '\'' :: rest).head? ≠ some '\'' := by
      rw [doubleQuotes, List.flatMap_cons, if_neg (by decide)]
      exact fun heq ↦ absurd (Option.some.inj heq) (by decide)
    rw [escape_append_brace after hbefore]
    calc
      _ = expandFrom arguments false
            (doubleQuotes before ++ '\'' :: (doubleQuotes ('{' :: after) ++ '\'' :: rest)) := by
        simp only [List.append_assoc, List.cons_append, List.nil_append]
      _ = before ++ expandFrom arguments true (doubleQuotes ('{' :: after) ++ '\'' :: rest) := by
        rw [expandFrom_doubleQuotes arguments _ fun hmem ↦ absurd hmem hbefore,
          expandFrom_quote arguments false hstart]
        rfl
      _ = before ++ ('{' :: after ++ expandFrom arguments false rest) := by
        rw [expandFrom_doubleQuotes arguments _ fun _ ↦ rfl,
          expandFrom_quote arguments true hrest]
        rfl
      _ = _ := (List.append_assoc ..).symm
  · rw [escape_of_not_mem hs, expandFrom_doubleQuotes arguments rest fun hmem ↦ absurd hmem hs]

/-- Quotes on both sides of a brace: each is written twice, and the stretch begins and ends with
a third one. -/
example : escape ['a', '\'', '{', '\''] = ['a', '\'', '\'', '\'', '{', '\'', '\'', '\''] := by
  decide

/-! ## Arguments between texts -/

/-- The place of an argument in a template. -/
def placeholder (k : Nat) : List Char :=
  '{' :: (Text.digits k ++ ['}'])

theorem expandFrom_placeholder (k : Fin arguments.length) (rest : List Char) :
    expandFrom arguments false (placeholder k ++ rest) =
      arguments[k].chars ++ expandFrom arguments false rest := by
  have hdigit : ∀ c ∈ Text.digits k, c.isDigit = true := fun _ hc ↦ Text.isDigit_of_mem_digits hc
  have hbrace : '}' ∉ Text.digits k := fun hmem ↦ absurd (hdigit _ hmem) (by decide)
  have htrim : Text.trim (Text.digits k) = Text.digits k :=
    Text.trim_eq_self fun c hc ↦ Text.isBlank_eq_false_of_isDigit (hdigit c hc)
  have hargument : argumentAt? arguments (Text.digits k) = some arguments[k] := by
    rw [argumentAt?, htrim, Text.numeral?_digits, Option.bind_some, List.getElem?_eq_getElem k.2]
    rfl
  have hgroup : expandGroup arguments (Text.digits k) = arguments[k].chars := by
    rw [expandGroup, hargument]
  rw [placeholder, List.cons_append, List.append_assoc, List.singleton_append,
    expandFrom_group arguments rest hbrace, hgroup]

/-- Texts with arguments between them, each given by its number among `n` arguments. -/
structure Parts (n : Nat) where
  /-- The text before the first argument. -/
  first : List Char
  /-- The arguments in order, each with the text that follows it. -/
  later : List (Fin n × List Char)

namespace Parts

variable {n : Nat}

/-- The message with given texts in the places of the arguments. -/
def fill (texts : Fin n → List Char) (parts : Parts n) : List Char :=
  parts.first ++ parts.later.flatMap fun (k, text) ↦ texts k ++ text

/-- A template for the message. -/
def template (parts : Parts n) : List Char :=
  escape parts.first ++ parts.later.flatMap fun (k, text) ↦ placeholder k ++ escape text

/-- Behind a text a template goes on with a brace, or not at all. -/
theorem head?_later_ne_quote (later : List (Fin n × List Char)) :
    (later.flatMap fun (k, text) ↦ placeholder k ++ escape text).head? ≠ some '\'' := by
  cases later with
  | nil => exact fun heq ↦ absurd heq (by simp)
  | cons part others =>
    obtain ⟨k, text⟩ := part
    exact fun heq ↦ absurd (Option.some.inj heq) (by decide)

end Parts

/-- The arguments of a template and the texts behind them. -/
theorem expandFrom_later (later : List (Fin arguments.length × List Char)) :
    expandFrom arguments false
        (later.flatMap fun (k, text) ↦ placeholder k ++ escape text) =
      later.flatMap fun (k, text) ↦ arguments[k].chars ++ text := by
  induction later with
  | nil => exact expandFrom_nil arguments false
  | cons part others ih =>
    obtain ⟨k, text⟩ := part
    rw [List.flatMap_cons, List.flatMap_cons, List.append_assoc, expandFrom_placeholder,
      expandFrom_escape arguments text (Parts.head?_later_ne_quote others), ih, List.append_assoc]

/-- **Every message has a template.**  Take any texts, and between them the numbers of any
arguments there are.  Expanding the template that is written for them gives the texts again,
with the texts of the arguments in their places. -/
theorem expand_template (arguments : List Argument) (parts : Parts arguments.length) :
    expand (String.ofList parts.template) arguments =
      String.ofList (parts.fill fun k ↦ arguments[k].chars) := by
  rw [expand, String.toList_ofList, Parts.template,
    expandFrom_escape arguments parts.first (Parts.head?_later_ne_quote parts.later),
    expandFrom_later, Parts.fill]

end Message

end XmlDiagnostics
