import Mathlib.Data.List.Basic
import XmlDiagnostics.Message.Formatter
import XmlDiagnostics.Proofs.Escaping

/-!
# Lists of expected elements

A schema writes the elements that it expects into one argument: each as its local name, or as a
namespace in quotes, a colon and the local name, with commas between them (`ListsElements`).  The
message shows the local names, one in each line.

The argument is cut at its commas before anything else is looked at.  Nothing of one element gets
into the lines of another one (`pieces_joinWith`), so it is enough to look at them one by one.  The
quotes around a namespace do not keep a comma in it from being one to cut at: then the part before
that comma is shown too, and it begins with a quote, which is in no local name.  Hence the list is
the right one just if no namespace has a comma (`lines_eq_iff`).
-/

namespace XmlDiagnostics.Message

/-- An element that a schema expects. -/
structure ExpectedElement where
  /-- The namespace, if the element has one. -/
  space : Option (List Char)
  /-- The local name. -/
  name : List Char
  quote_not_mem_space : ∀ s, space = some s → '"' ∉ s
  name_ne_nil : name ≠ []
  isBlank_name : ∀ c ∈ name, Text.isBlank c = false
  mark_not_mem_name : ',' ∉ name ∧ '{' ∉ name ∧ '}' ∉ name ∧ '"' ∉ name

namespace ExpectedElement

/-- An element as it is written in an argument. -/
def chars (e : ExpectedElement) : List Char :=
  match e.space with
  | none => e.name
  | some s => '"' :: s ++ '"' :: ':' :: e.name

/-- The line of an element in a message. -/
def row (e : ExpectedElement) : List Char :=
  '\n' :: ' ' :: '-' :: ' ' :: e.name

end ExpectedElement

/-- An argument lists elements: in braces, or as a list of values, one for each of them. -/
def ListsElements (argument : Argument) (elements : List ExpectedElement) : Prop :=
  argument.chars =
      '{' :: Text.joinWith [',', ' '] (elements.map ExpectedElement.chars) ++ ['}'] ∨
    ∃ values, argument = .list values ∧
      values.map Argument.chars = elements.map ExpectedElement.chars

/-- The sentences before a list of expected elements, by key: the text before the element that an
error is about, and the text behind it. -/
def expectations : List (String × String × String) :=
  [("cvc-complex-type.2.4.a",
      "cvc-complex-type.2.4.a: Invalid content was found starting with element '",
      "'. One of the following is expected:"),
    ("cvc-complex-type.2.4.b", "cvc-complex-type.2.4.b: The content of element '",
      "' is not complete. One of the following is expected:")]

/-! ## What is around a list -/

namespace ExpectedElements

/-- A text that loses nothing at its ends: it begins and ends neither with a blank nor with a
brace. -/
structure IsBare (s : List Char) : Prop where
  first : ∀ c, s.head? = some c → Text.isBlank c = false ∧ c ≠ '{'
  last : ∀ c, s.getLast? = some c → Text.isBlank c = false ∧ c ≠ '}'

namespace IsBare

variable {s t : List Char}

theorem nil : IsBare [] where
  first _ hc := nomatch hc
  last _ hc := nomatch hc

/-- What stands between two texts does not matter. -/
theorem between (hs : IsBare s) (ht : IsBare t) (hs' : s ≠ []) (ht' : t ≠ []) (m : List Char) :
    IsBare (s ++ m ++ t) where
  first c hc := by
    rw [List.append_assoc, List.head?_append_of_ne_nil _ hs'] at hc
    exact hs.first c hc
  last c hc := by
    rw [List.getLast?_append_of_ne_nil _ ht'] at hc
    exact ht.last c hc

theorem joinWith {texts : List (List Char)} (h : ∀ s ∈ texts, IsBare s ∧ s ≠ [])
    (separator : List Char) :
    IsBare (Text.joinWith separator texts) ∧
      (texts ≠ [] → Text.joinWith separator texts ≠ []) := by
  induction texts with
  | nil => exact ⟨nil, fun hne ↦ absurd rfl hne⟩
  | cons s others ih =>
    obtain ⟨hs, hne⟩ := h s List.mem_cons_self
    obtain ⟨hbare, hothers⟩ := ih fun t ht ↦ h t (List.mem_cons_of_mem s ht)
    cases others with
    | nil => exact ⟨hs, fun _ ↦ hne⟩
    | cons t rest =>
      rw [Text.joinWith]
      refine ⟨hs.between hbare hne (hothers (List.cons_ne_nil t rest)) separator, fun _ ↦ ?_⟩
      rw [List.append_assoc]
      exact List.append_ne_nil_of_left_ne_nil hne _

theorem trim_eq (h : IsBare s) : Text.trim s = s :=
  Text.trim_eq_self_of_ends (fun c hc ↦ (h.first c hc).1) fun c hc ↦ (h.last c hc).1

theorem dropLeading_eq (h : IsBare s) : dropLeading '{' s = s :=
  Text.dropWhile_eq_self fun c hc ↦ by simpa using (h.first c hc).2

theorem dropTrailing_eq (h : IsBare s) : dropTrailing '}' s = s :=
  Text.reverse_dropWhile_reverse fun c hc ↦ by simpa using (h.last c hc).2

/-- Braces around a text are dropped, and nothing more if it loses nothing at its ends. -/
theorem of_braces (h : IsBare s) :
    dropTrailing '}' (dropLeading '{' (Text.trim ('{' :: s ++ ['}']))) = s := by
  have htrim : Text.trim ('{' :: s ++ ['}']) = '{' :: s ++ ['}'] := by
    refine Text.trim_eq_self_of_ends (fun c hc ↦ ?_) fun c hc ↦ ?_
    · obtain rfl : '{' = c := Option.some.inj hc
      decide
    · rw [List.getLast?_concat] at hc
      obtain rfl : '}' = c := Option.some.inj hc
      decide
  have hleading : dropLeading '{' ('{' :: s ++ ['}']) = s ++ ['}'] := by
    rw [dropLeading, List.cons_append, List.dropWhile_cons_of_pos (by simp)]
    refine Text.dropWhile_eq_self fun c hc ↦ ?_
    cases s with
    | nil =>
      obtain rfl : '}' = c := Option.some.inj hc
      decide
    | cons first rest => simpa using (h.first c hc).2
  rw [htrim, hleading, dropTrailing, List.reverse_append, List.reverse_singleton,
    List.singleton_append, List.dropWhile_cons_of_pos (by simp)]
  exact h.dropTrailing_eq

end IsBare

/-! ## Cutting at commas -/

/-- The items of a text without braces around it. -/
def pieces (s : List Char) : List (List Char) :=
  ((Text.fields ',' s).map Text.trim).filter (· ≠ [])

theorem items_eq_pieces (s : List Char) :
    items s = pieces (dropTrailing '}' (dropLeading '{' (Text.trim s))) := rfl

theorem pieces_cons_of_isBlank {c : Char} (h : Text.isBlank c = true) (s : List Char) :
    pieces (c :: s) = pieces s := by
  have hc : c ≠ ',' := by
    rintro rfl
    exact absurd h (by decide)
  obtain ⟨first, others, hs⟩ := List.exists_cons_of_ne_nil (Text.fields_ne_nil ',' s)
  rw [pieces, pieces, Text.fields, if_neg hc, hs, List.map_cons, List.map_cons,
    Text.trim_cons_of_isBlank h]

/-- Texts that are joined with commas are cut one by one. -/
theorem pieces_joinWith (texts : List (List Char)) :
    pieces (Text.joinWith [',', ' '] texts) = texts.flatMap pieces := by
  cases texts with
  | nil => rfl
  | cons s others =>
    have hothers : (others.flatMap fun t ↦ Text.fields ',' ([' '] ++ t)).map Text.trim =
        others.flatMap fun t ↦ (Text.fields ',' (' ' :: t)).map Text.trim :=
      List.map_flatMap
    rw [pieces, Text.fields_joinWith, List.map_append, List.filter_append, hothers,
      List.filter_flatMap, List.flatMap_cons]
    refine congrArg (pieces s ++ ·) (List.flatMap_congr fun t _ ↦ ?_)
    exact pieces_cons_of_isBlank (by decide) t

/-- A text without commas that loses nothing at its ends is one item. -/
theorem pieces_of_isBare {s : List Char} (h : IsBare s) (hne : s ≠ []) (hcomma : ',' ∉ s) :
    pieces s = [s] := by
  rw [pieces, Text.fields_of_not_mem hcomma, List.map_singleton, h.trim_eq,
    List.filter_cons_of_pos (by simpa using hne), List.filter_nil]

end ExpectedElements

/-! ## One element -/

namespace ExpectedElement

open ExpectedElements

variable (e : ExpectedElement)

theorem isBare_name : IsBare e.name := by
  obtain ⟨-, hopening, hclosing, -⟩ := e.mark_not_mem_name
  constructor
  · intro c hc
    have hmem := List.mem_of_mem_head? hc
    exact ⟨e.isBlank_name c hmem, ne_of_mem_of_not_mem hmem hopening⟩
  · intro c hc
    have hmem := List.mem_of_getLast? hc
    exact ⟨e.isBlank_name c hmem, ne_of_mem_of_not_mem hmem hclosing⟩

theorem chars_ne_nil : e.chars ≠ [] := by
  rw [chars]
  split
  · exact e.name_ne_nil
  · exact List.cons_ne_nil _ _

theorem isBare_chars : IsBare e.chars := by
  rw [chars]
  split
  · exact e.isBare_name
  · rename_i s _
    have hquote : IsBare ['"'] := by
      constructor
      · rintro c ⟨⟩
        decide
      · rintro c ⟨⟩
        decide
    have hbetween := hquote.between e.isBare_name (List.cons_ne_nil _ _) e.name_ne_nil
      (s ++ ['"', ':'])
    simpa using hbetween

/-- The local name is found behind the namespace, whatever that says. -/
theorem localName_chars : localName e.chars = e.name := by
  obtain ⟨-, -, -, hquote⟩ := e.mark_not_mem_name
  cases hspace : e.space with
  | none =>
    have hchars : e.chars = e.name := by rw [chars, hspace]
    rw [hchars, localName]
    rintro rest hname
    exact hquote (hname ▸ List.mem_cons_self)
  | some s =>
    have hchars : e.chars = '"' :: (s ++ (['"', ':'] ++ e.name)) := by rw [chars, hspace]; rfl
    rw [hchars, localName, Text.cutAt?_append (e.quote_not_mem_space s hspace)]

/-- Without a comma in its namespace an element is one item. -/
theorem pieces_chars (h : ∀ s, e.space = some s → ',' ∉ s) : pieces e.chars = [e.chars] := by
  refine pieces_of_isBare e.isBare_chars e.chars_ne_nil ?_
  obtain ⟨hname, -⟩ := e.mark_not_mem_name
  rw [chars]
  split
  · exact hname
  · rename_i s hs
    simp [h s hs, hname]

/-- With a comma in its namespace, some item of an element is shown with a quote. -/
theorem exists_quote_of_comma {s : List Char} (hspace : e.space = some s) (hcomma : ',' ∈ s) :
    ∃ item ∈ pieces e.chars, '"' ∈ localName item := by
  obtain ⟨before, after, rfl, hbefore⟩ := List.eq_append_cons_of_mem hcomma
  have hquote : '"' ∉ before := fun hmem ↦
    e.quote_not_mem_space _ hspace (List.mem_append_left _ hmem)
  have hchars : e.chars = '"' :: before ++ ',' :: (after ++ '"' :: ':' :: e.name) := by
    rw [chars, hspace]
    simp
  have hfield : ',' ∉ '"' :: before := by simp [hbefore]
  -- The first item goes from the quote to the comma, and the quote that would end the
  -- namespace is not in it.
  have htrim : Text.trim ('"' :: before) = '"' :: Text.trimEnd before :=
    Text.trim_cons_of_not_isBlank (by decide) before
  have hitem : localName ('"' :: Text.trimEnd before) = '"' :: Text.trimEnd before := by
    rw [localName, Text.cutAt?_eq_none fun hmem ↦ hquote (Text.mem_of_mem_trimEnd hmem)]
  refine ⟨'"' :: Text.trimEnd before, ?_, by rw [hitem]; exact List.mem_cons_self⟩
  rw [hchars, pieces, Text.fields_append_cons, Text.fields_of_not_mem hfield,
    List.singleton_append, List.map_cons, htrim]
  exact List.mem_filter.mpr ⟨List.mem_cons_self, by simp⟩

end ExpectedElement

/-! ## The whole list -/

namespace ExpectedElements

variable {argument : Argument} {elements : List ExpectedElement}

/-- The items of an argument are those of its elements. -/
theorem items_of_lists (h : ListsElements argument elements) :
    items argument.chars = elements.flatMap fun e ↦ pieces e.chars := by
  have hchars : ∀ s ∈ elements.map ExpectedElement.chars, IsBare s ∧ s ≠ [] := by
    intro s hs
    obtain ⟨e, -, rfl⟩ := List.mem_map.mp hs
    exact ⟨e.isBare_chars, e.chars_ne_nil⟩
  obtain ⟨hbare, -⟩ := IsBare.joinWith hchars [',', ' ']
  have hinner : dropTrailing '}' (dropLeading '{' (Text.trim argument.chars)) =
      Text.joinWith [',', ' '] (elements.map ExpectedElement.chars) := by
    rcases h with h | ⟨values, rfl, h⟩
    · rw [h, hbare.of_braces]
    · rw [Argument.chars, Argument.charsOfEach_eq_map, h, hbare.trim_eq, hbare.dropLeading_eq,
        hbare.dropTrailing_eq]
  rw [items_eq_pieces, hinner, pieces_joinWith, List.flatMap_map]

/-- The list in the message is one line for each element, in order, just if no namespace has a
comma. -/
theorem lines_eq_iff (h : ListsElements argument elements) :
    lines argument.chars = elements.flatMap ExpectedElement.row ↔
      ∀ e ∈ elements, ∀ s, e.space = some s → ',' ∉ s := by
  have hlines : lines argument.chars = elements.flatMap fun e ↦
      (pieces e.chars).flatMap fun item ↦ '\n' :: ' ' :: '-' :: ' ' :: localName item := by
    rw [lines, items_of_lists h, List.flatMap_assoc]
  rw [hlines]
  constructor
  · intro hrows e he s hspace hcomma
    obtain ⟨item, hitem, hquote⟩ := e.exists_quote_of_comma hspace hcomma
    have hmem : '"' ∈ elements.flatMap ExpectedElement.row := by
      rw [← hrows]
      refine List.mem_flatMap.mpr ⟨e, he, List.mem_flatMap.mpr ⟨item, hitem, ?_⟩⟩
      simp [hquote]
    obtain ⟨e', -, hrow⟩ := List.mem_flatMap.mp hmem
    have hname : '"' ∈ e'.name := by simpa [ExpectedElement.row] using hrow
    exact e'.mark_not_mem_name.2.2.2 hname
  · intro hcomma
    refine List.flatMap_congr fun e he ↦ ?_
    rw [e.pieces_chars (hcomma e he), List.flatMap_singleton, e.localName_chars]
    rfl

end ExpectedElements

/-! ## The whole message -/

theorem map_toList_find?_of_mem_expectations {key before behind : String}
    (h : (key, before, behind) ∈ expectations) :
    (expectedElementTemplates.find? key).map String.toList = some
      (escape before.toList ++ (placeholder 0 ++ (escape behind.toList ++ placeholder 1))) := by
  rw [expectations, List.mem_cons, List.mem_singleton] at h
  rcases h with h | h
  · cases h
    decide +kernel
  · cases h
    decide +kernel

/-- The sentence with an element in its place, and the list behind it. -/
theorem format_schema_eq {key before behind : String} (h : (key, before, behind) ∈ expectations)
    (locale : Locale) (element argument : Argument) (others : List Argument) :
    Formatter.schema.format locale key (element :: argument :: others) =
      before ++ element.text ++ behind ++
        String.ofList (ExpectedElements.lines argument.chars) := by
  obtain ⟨template, hfind, htemplate⟩ :=
    Option.map_eq_some_iff.mp (map_toList_find?_of_mem_expectations h)
  let arguments := element :: ExpectedElements.rewrite argument :: others
  have hfirst : ∀ rest, expandFrom arguments false (placeholder 0 ++ rest) =
      element.chars ++ expandFrom arguments false rest :=
    expandFrom_placeholder arguments ⟨0, Nat.zero_lt_succ _⟩
  have hsecond : expandFrom arguments false (placeholder 1) =
      ExpectedElements.lines argument.chars := by
    have h := expandFrom_placeholder arguments ⟨1, Nat.succ_lt_succ (Nat.zero_lt_succ _)⟩ []
    rw [List.append_nil, expandFrom_nil, List.append_nil] at h
    refine h.trans ?_
    show (ExpectedElements.rewrite argument).chars = _
    rw [ExpectedElements.rewrite, Argument.chars, String.toList_ofList]
  -- A placeholder begins with a brace, so no quote of a text meets another one behind it.
  have hplace : ∀ rest : List Char, (placeholder 0 ++ rest).head? ≠ some '\'' :=
    fun _ heq ↦ absurd (Option.some.inj heq) (by decide)
  have hlast : (placeholder 1).head? ≠ some '\'' :=
    fun heq ↦ absurd (Option.some.inj heq) (by decide)
  have hmessage : expandFrom arguments false template.toList = before.toList ++
      (element.chars ++ (behind.toList ++ ExpectedElements.lines argument.chars)) := by
    rw [htemplate, expandFrom_escape arguments _ (hplace _), hfirst,
      expandFrom_escape arguments _ hlast, hsecond]
  have hexpand : Formatter.schema.format locale key (element :: argument :: others) =
      expand template arguments := by
    unfold Formatter.format Formatter.formatSchema
    rw [hfind]
  rw [hexpand, expand, hmessage, ← String.toList_inj]
  simp only [String.toList_append, String.toList_ofList, Argument.text, List.append_assoc]

/-- The message for a schema error that names elements is its sentence with their local names, one
in each line, just if no namespace has a comma. -/
theorem format_lists_elements {key before behind : String} {argument : Argument}
    {elements : List ExpectedElement} (hkey : (key, before, behind) ∈ expectations)
    (hargument : ListsElements argument elements) (locale : Locale) (element : Argument)
    (others : List Argument) :
    Formatter.schema.format locale key (element :: argument :: others) =
        before ++ element.text ++ behind ++ String.ofList (elements.flatMap ExpectedElement.row) ↔
      ∀ e ∈ elements, ∀ s, e.space = some s → ',' ∉ s := by
  rw [format_schema_eq hkey, ← ExpectedElements.lines_eq_iff hargument, ← String.toList_inj]
  simp only [String.toList_append, String.toList_ofList, List.append_cancel_left_eq]

/-- A namespace may be empty, and braces, colons and blanks in one are no part of the list. -/
theorem format_lists_elements_of_braces :
    let down : ExpectedElement := ⟨some "\x7ba: b\x7d ".toList, ['d', 'n'], by simp, by simp,
      by simp; decide, by decide⟩
    let up : ExpectedElement := ⟨some [], ['u', 'p'], by simp, by simp, by simp; decide, by decide⟩
    let argument : Argument := .str "\x7b\"\x7ba: b\x7d \":dn, \"\":up\x7d"
    ListsElements argument [down, up] ∧
      Formatter.schema.format ⟨"fr"⟩ "cvc-complex-type.2.4.b"
          [.str "\x7b1\x7d", argument, .int 3] =
        "cvc-complex-type.2.4.b: The content of element '" ++ "\x7b1\x7d" ++
          "' is not complete. One of the following is expected:" ++ "\n - dn\n - up" := by
  intro down up argument
  have hargument : ListsElements argument [down, up] := Or.inl (by decide +kernel)
  have hkey : ("cvc-complex-type.2.4.b", "cvc-complex-type.2.4.b: The content of element '",
      "' is not complete. One of the following is expected:") ∈ expectations :=
    List.mem_cons_of_mem _ List.mem_cons_self
  have hcomma : ∀ e ∈ [down, up], ∀ s, e.space = some s → ',' ∉ s := by
    intro e he s hs
    rw [List.mem_cons, List.mem_singleton] at he
    rcases he with rfl | rfl
    · cases hs
      decide
    · cases hs
      decide
  refine ⟨hargument, ?_⟩
  exact (format_lists_elements hkey hargument ⟨"fr"⟩ (.str "\x7b1\x7d") [.int 3]).mpr hcomma

/-- A comma in a namespace cuts an element in two. -/
theorem format_cuts_element :
    let down : ExpectedElement := ⟨some "a,b".toList, ['d', 'n'], by simp, by simp,
      by simp; decide, by decide⟩
    let argument : Argument := .str "\x7b\"a,b\":dn\x7d"
    ListsElements argument [down] ∧
      Formatter.schema.format ⟨"en"⟩ "cvc-complex-type.2.4.a" [.str "up", argument] ≠
        "cvc-complex-type.2.4.a: Invalid content was found starting with element '" ++ "up" ++
          "'. One of the following is expected:" ++ "\n - dn" := by
  intro down argument
  refine ⟨Or.inl (by decide +kernel), ?_⟩
  decide +kernel

end XmlDiagnostics.Message
