import XmlDiagnostics.Pass
import XmlDiagnostics.Proofs.SessionLog

/-!
# Messages without a template tell their arguments apart

A message without a template is the name of an error and, behind a question mark, the texts of the
arguments with ampersands between them.  If these two characters do not occur where they would be
taken for something else, the message can be read again (`Message.parts_fallback`), so it is the
message of no other arguments, not even of none in place of an empty one.

Two events with the same name and other arguments therefore have different diagnostics, and what
becomes of one of them does not depend on whether the other one was reported
(`Reporter.verdict_apart`).
-/

namespace XmlDiagnostics

namespace Message

/-! ## Reading a message without a template -/

theorem query_cons (text : List Char) (others : List (List Char)) :
    query (text :: others) = '?' :: Text.joinWith ['&'] (text :: others) := by
  induction others generalizing text with
  | nil => simp [query, Text.joinWith]
  | cons next others ih =>
    have hnext : next ++ others.flatMap ('&' :: ·) = Text.joinWith ['&'] (next :: others) :=
      List.cons.inj (ih next) |>.2
    rw [query, Text.joinWith, ← hnext, List.flatMap_cons]
    simp

/-- Texts without the separator are the fields of what they are joined to with separators. -/
theorem fields_joinWith_of_not_mem {separator : Char} {text : List Char}
    {others : List (List Char)} (h : ∀ t ∈ text :: others, separator ∉ t) :
    Text.fields separator (Text.joinWith [separator] (text :: others)) = text :: others := by
  have hothers : ∀ t ∈ others, Text.fields separator ([] ++ t) = [t] :=
    fun t ht ↦ Text.fields_of_not_mem (h t (List.mem_cons_of_mem _ ht))
  rw [Text.fields_joinWith, Text.fields_of_not_mem (h text List.mem_cons_self),
    List.singleton_append]
  refine congrArg (text :: ·) ?_
  calc others.flatMap (fun t ↦ Text.fields separator ([] ++ t))
      = others.flatMap fun t ↦ [t] := List.flatMap_congr hothers
    _ = others := List.flatMap_singleton' others

/-- The name of an error and the texts of its arguments that stand in a message: what is before the
first question mark, and the fields between ampersands behind it. -/
def parts (message : List Char) : List Char × List (List Char) :=
  match Text.cutAt? ['?'] message with
  | none => (message, [])
  | some (name, rest) => (name, Text.fields '&' rest)

section Fallback

variable {name : String} {arguments : List Argument}

theorem toList_fallback (name : String) (arguments : List Argument) :
    (fallback name arguments).toList = name.toList ++ query (arguments.map Argument.chars) :=
  String.toList_ofList

@[simp] theorem fallback_nil (name : String) : fallback name [] = name := by
  simp [fallback, query]

/-- A message has a question mark behind its name just if there are arguments. -/
theorem not_mem_fallback_iff (hname : '?' ∉ name.toList) :
    '?' ∉ (fallback name arguments).toList ↔ arguments = [] := by
  cases arguments with
  | nil => simpa using hname
  | cons a others =>
    rw [toList_fallback, List.map_cons, query_cons]
    simp

/-- The first question mark of a message with arguments stands between the name and the texts of the
arguments, which are what stands between the ampersands behind it. -/
theorem exists_cutAt?_fallback (hname : '?' ∉ name.toList) (ha : ∀ a ∈ arguments, '&' ∉ a.chars)
    (hne : arguments ≠ []) :
    ∃ rest, Text.cutAt? ['?'] (fallback name arguments).toList = some (name.toList, rest) ∧
      Text.fields '&' rest = arguments.map Argument.chars := by
  obtain ⟨a, others, rfl⟩ := List.exists_cons_of_ne_nil hne
  have htexts : ∀ t ∈ a.chars :: others.map Argument.chars, '&' ∉ t := by
    rw [← List.map_cons]
    intro t ht
    obtain ⟨b, hb, rfl⟩ := List.mem_map.mp ht
    exact ha b hb
  refine ⟨Text.joinWith ['&'] (a.chars :: others.map Argument.chars), ?_,
    fields_joinWith_of_not_mem htexts⟩
  rw [toList_fallback, List.map_cons, query_cons]
  exact Text.cutAt?_append hname _

/-- A message without a template is read again as its name and the texts of its arguments. -/
theorem parts_fallback (hname : '?' ∉ name.toList) (ha : ∀ a ∈ arguments, '&' ∉ a.chars) :
    parts (fallback name arguments).toList = (name.toList, arguments.map Argument.chars) := by
  by_cases hne : arguments = []
  · subst hne
    rw [parts, fallback_nil, Text.cutAt?_eq_none hname, List.map_nil]
  · obtain ⟨rest, hcut, hfields⟩ := exists_cutAt?_fallback hname ha hne
    rw [parts, hcut]
    exact congrArg _ hfields

/-- Two messages with one name are equal only if the texts of the arguments are. -/
theorem map_chars_eq_of_fallback_eq {arguments' : List Argument} (hname : '?' ∉ name.toList)
    (ha : ∀ a ∈ arguments, '&' ∉ a.chars) (ha' : ∀ a ∈ arguments', '&' ∉ a.chars)
    (h : fallback name arguments = fallback name arguments') :
    arguments.map Argument.chars = arguments'.map Argument.chars := by
  have hparts := parts_fallback hname ha
  rw [h, parts_fallback hname ha'] at hparts
  exact (congrArg Prod.snd hparts).symm

end Fallback

/-! ## When there is no template -/

/-- Errors with a key of a domain have a message without a template, with a given name. -/
inductive Registry.FallsBack (registry : Registry) (domain key : String) : String → Prop
  /-- There is no formatter for the domain. -/
  | unregistered : registry.find? (.ofAddress domain) = none →
      registry.FallsBack domain key (domain ++ "#" ++ key)
  /-- The catalog for the domain does not have the key. -/
  | catalog {templates : Catalog} :
      registry.find? (.ofAddress domain) = some (Formatter.catalog templates).wording →
      templates.find? key = none → registry.FallsBack domain key key
  /-- The domain has the messages of schemas, and their catalog does not have the key. -/
  | schema : registry.find? (.ofAddress domain) = some Formatter.schema.wording →
      Catalog.schema.find? key = none → registry.FallsBack domain key key

/-- The sentences that end in a list of expected elements are sentences of the catalog. -/
theorem find?_expectedElementTemplates {key : String} (h : Catalog.schema.find? key = none) :
    expectedElementTemplates.find? key = none := by
  have hkeys : ∀ k ∈ expectedElementTemplates.keys, k ∈ Catalog.schema.keys := by decide
  rw [OrderedMap.find?_eq_none_iff] at h ⊢
  exact fun hmem ↦ h (hkeys key hmem)

/-- A key without a template has the message with its name, whatever the locale. -/
theorem Registry.FallsBack.format_eq {registry : Registry} {domain key name : String}
    (h : registry.FallsBack domain key name) (locale : Locale) (arguments : List Argument) :
    registry.format locale domain key arguments = fallback name arguments := by
  cases h with
  | unregistered hfind => rw [Registry.format, hfind]
  | catalog hfind hkey =>
    rw [Registry.format, hfind]
    show Catalog.format _ _ _ = _
    rw [Catalog.format, hkey]
  | schema hfind hkey =>
    rw [Registry.format, hfind]
    show Formatter.formatSchema _ _ = _
    unfold Formatter.formatSchema
    rw [find?_expectedElementTemplates hkey]
    show Catalog.format _ _ _ = _
    rw [Catalog.format, hkey]

end Message

/-! ## Events that are told apart -/

namespace Reporter

variable {r : Reporter} {e e' : Event}

/-- The verdict on an event depends on the log only through whether the diagnostic of the event is
there. -/
theorem report_snd_congr {log log' : Diagnostic.Log}
    (h : ∀ d, r.diagnosticOf? e = some d → (d ∈ log.entries ↔ d ∈ log'.entries)) :
    (r.report log e).2 = (r.report log' e).2 := by
  unfold report
  cases hd : r.diagnosticOf? e with
  | none => rfl
  | some d => simp [Diagnostic.Log.lacks, h d hd]

/-- If two events have different messages, it does not matter to the one whether the other was
reported, before any others. -/
theorem verdict_apart (h : r.messageOf e ≠ r.messageOf e') (log : Diagnostic.Log)
    (others : List Event) :
    (r.report ((⟨r, log⟩ : Session).run ((e :: others).map .report)).1.log e').2 =
      (r.report ((⟨r, log⟩ : Session).run (others.map .report)).1.log e').2 := by
  refine report_snd_congr fun d hd ↦ ?_
  obtain ⟨range, -, rfl⟩ := Option.map_eq_some_iff.mp hd
  have hne : r.diagnosticOf? e ≠ some (r.diagnosticAt e' range) := by
    intro heq
    obtain ⟨range', -, hdiagnostic⟩ := Option.map_eq_some_iff.mp heq
    exact h (congrArg Diagnostic.message hdiagnostic)
  rw [Session.log_run_map_report, Session.log_run_map_report, Diagnostic.Log.mem_entries_recordAll,
    Diagnostic.Log.mem_entries_recordAll]
  simp only [List.mem_filterMap, List.mem_cons, exists_eq_or_imp, hne, false_or]

end Reporter

/-- **Messages without a template can be read again.**  The name of an error ends at the first
question mark, and the texts of the arguments are the fields behind it, if neither of the two
characters occurs in the wrong place.  So where a reporter has no template, two events with the same
domain and key but other argument texts have different messages and different diagnostics, and what
becomes of one of them is the same whether or not the other one was reported before. -/
theorem Message.fallback_tells_arguments :
    (∀ (name : String) (arguments : List Argument), '?' ∉ name.toList →
      (∀ a ∈ arguments, '&' ∉ a.chars) →
      ('?' ∉ (fallback name arguments).toList ↔ arguments = []) ∧
        (arguments ≠ [] → ∃ rest,
          Text.cutAt? ['?'] (fallback name arguments).toList = some (name.toList, rest) ∧
            Text.fields '&' rest = arguments.map Argument.chars)) ∧
    ∀ (r : Reporter) (e e' : Event) (name : String),
      r.formatters.FallsBack e.domain e.key name → '?' ∉ name.toList →
      e'.domain = e.domain → e'.key = e.key →
      (∀ a ∈ e.arguments ++ e'.arguments, '&' ∉ a.chars) →
      e.arguments.map Argument.chars ≠ e'.arguments.map Argument.chars →
      r.messageOf e ≠ r.messageOf e' ∧
        (∀ d d', r.diagnosticOf? e = some d → r.diagnosticOf? e' = some d' → d ≠ d') ∧
        ∀ (log : Diagnostic.Log) (others : List Event),
          (r.report ((⟨r, log⟩ : Session).run ((e :: others).map .report)).1.log e').2 =
            (r.report ((⟨r, log⟩ : Session).run (others.map .report)).1.log e').2 := by
  refine ⟨fun name arguments hname ha ↦ ⟨not_mem_fallback_iff hname,
    exists_cutAt?_fallback hname ha⟩, ?_⟩
  intro r e e' name hfalls hname hdomain hkey ha htexts
  have hmessage : r.messageOf e ≠ r.messageOf e' := by
    intro heq
    rw [Reporter.messageOf, Reporter.messageOf, hdomain, hkey, hfalls.format_eq,
      hfalls.format_eq] at heq
    exact htexts (map_chars_eq_of_fallback_eq hname
      (fun a hmem ↦ ha a (List.mem_append_left _ hmem))
      (fun a hmem ↦ ha a (List.mem_append_right _ hmem)) heq)
  refine ⟨hmessage, fun d d' hd hd' heq ↦ ?_, Reporter.verdict_apart hmessage⟩
  obtain ⟨range, -, rfl⟩ := Option.map_eq_some_iff.mp hd
  obtain ⟨range', -, rfl⟩ := Option.map_eq_some_iff.mp hd'
  exact hmessage (congrArg Diagnostic.message heq)

/-- An empty argument is not taken for no argument, with a key that the catalog of the domain does
not have, nor a question mark in an argument for the one before all of them. -/
theorem Message.fallback_tells_empty_argument :
    let r := Pass.reporter {} (.ofString "<a/>")
    let e : Event := ⟨Domain.xmlAddress, "Unheard", [], .error, none, none⟩
    let e' : Event := { e with arguments := [.str ""] }
    r.messageOf e ≠ r.messageOf e' ∧
      ∃ rest, Text.cutAt? ['?'] (fallback "urn:x#E" [.str "a?b", .str ""]).toList =
          some ("urn:x#E".toList, rest) ∧
        Text.fields '&' rest = [['a', '?', 'b'], []] := by
  intro r e e'
  have hfalls : r.formatters.FallsBack e.domain e.key "Unheard" :=
    @Registry.FallsBack.catalog _ _ _ Catalog.xml rfl (by decide +kernel)
  have hname : '?' ∉ "Unheard".toList := by decide +kernel
  have hname' : '?' ∉ "urn:x#E".toList := by decide +kernel
  have htexts : ∀ a ∈ e.arguments ++ e'.arguments, '&' ∉ a.chars := by
    simp [e, e', Argument.chars]
  have htexts' : ∀ a ∈ [Argument.str "a?b", .str ""], '&' ∉ a.chars := by
    simp [Argument.chars]
  have hne : e.arguments.map Argument.chars ≠ e'.arguments.map Argument.chars := by
    simp [e, e']
  obtain ⟨hreads, hapart⟩ := fallback_tells_arguments
  refine ⟨(hapart r e e' "Unheard" hfalls hname rfl rfl htexts hne).1, ?_⟩
  obtain ⟨rest, hcut, hfields⟩ := (hreads "urn:x#E" _ hname' htexts').2 (List.cons_ne_nil _ _)
  exact ⟨rest, hcut, hfields.trans (by simp [Argument.chars])⟩

end XmlDiagnostics
