import XmlDiagnostics.Proofs.LineIndex
import XmlDiagnostics.Proofs.Reporting

/-!
# Which events have a place

An event is dropped if no range can be found for it, and stops the parser if it is fatal,
has a range, and nobody tolerates its key.  `Unplaced` says when no range can be found,
by the coordinates of the event and the answer of the family alone.

Whether positions are validated changes where an event is put, but not whether it is put
anywhere: the two ways to find a position fail on the same events
(`pointOf?_eq_none_iff`).
-/

namespace XmlDiagnostics

/-! ## What the parser knows -/

namespace Event.Location

theorem position?_eq_none_iff {l : Location} :
    l.position? = none ↔ l.line.toInt < 1 ∨ l.column.toInt < 1 := by
  rw [position?]
  split
  · rename_i h
    simp only [reduceCtorEq, false_iff]
    omega
  · rename_i h
    simp only [true_iff]
    omega

theorem position?_eq_some_iff {l : Location} {p : Position} :
    l.position? = some p ↔
      (p.line : Int) = l.line.toInt - 1 ∧ (p.character : Int) = l.column.toInt - 1 := by
  rw [position?]
  split
  · rename_i h
    rw [Option.some.injEq, Position.ext_iff]
    simp only
    omega
  · rename_i h
    simp only [reduceCtorEq, false_iff]
    omega

theorem errorOffset?_eq_none_iff {l : Location} :
    l.errorOffset? = none ↔ l.offset.toInt < 1 := by
  rw [errorOffset?]
  split
  · rename_i h
    simp only [reduceCtorEq, false_iff]
    omega
  · rename_i h
    simp only [true_iff]
    omega

theorem errorOffset?_eq_some_iff {l : Location} {offset : Nat} :
    l.errorOffset? = some offset ↔ (offset : Int) = l.offset.toInt - 1 := by
  rw [errorOffset?]
  split
  · rename_i h
    rw [Option.some.injEq]
    omega
  · rename_i h
    simp only [reduceCtorEq, false_iff]
    omega

/-- The offset of an error is a coordinate, since the parser counts in words. -/
theorem errorOffset_lt_bound {l : Location} {offset : Nat} (h : l.errorOffset? = some offset) :
    offset < Position.bound := by
  have hoffset := errorOffset?_eq_some_iff.mp h
  have hhigh := l.offset.toInt_lt
  have hbound : (2 ^ 31 : Int) ≤ Position.bound := by decide
  omega

end Event.Location

namespace Reporter

variable (r : Reporter)

/-! ## The two ways to find a position -/

/-- Where positions are validated, the line index comes first. -/
theorem pointOf?_of_validates (hvalidate : r.settings.validatePositions = true)
    (l : Event.Location) (offset : Nat) :
    r.pointOf? l offset =
      match r.document.positionAt offset with
      | .ok p => some p
      | .error _ => l.position? := by
  unfold pointOf?
  cases hsetting : r.settings.validatePositions with
  | false =>
    rw [hsetting] at hvalidate
    cases hvalidate
  | true => rfl

/-- Where positions are not validated, the parser's own position comes first. -/
theorem pointOf?_of_trusts (htrust : r.settings.validatePositions = false)
    (l : Event.Location) (offset : Nat) :
    r.pointOf? l offset =
      match l.position? with
      | some p => some p
      | none =>
        match r.document.positionAt offset with
        | .ok p => some p
        | .error _ => none := by
  unfold pointOf?
  rw [htrust]
  cases l.position? <;> rfl

/-! ## Positions that cannot be found -/

/-- An offset has no position just if it is behind the document and the parser does not
help out.  The settings have no say in it. -/
theorem pointOf?_eq_none_iff (hlength : r.document.length < Position.bound)
    {l : Event.Location} {offset : Nat} :
    r.pointOf? l offset = none ↔ r.document.length < offset ∧ l.position? = none := by
  have hindex : (∃ p, r.document.positionAt offset = .ok p) ↔ offset ≤ r.document.length :=
    Document.exists_positionAt_iff hlength
  unfold pointOf?
  cases hstated : l.position? with
  | some p =>
    cases r.settings.validatePositions with
    | false => simp
    | true => cases r.document.positionAt offset <;> simp
  | none =>
    cases hpos : r.document.positionAt offset with
    | ok p =>
      have hle := hindex.mp ⟨p, hpos⟩
      cases r.settings.validatePositions <;> simp <;> omega
    | error reason =>
      have hlt : ¬ offset ≤ r.document.length := by
        rw [← hindex, hpos]
        rintro ⟨p, hp⟩
        cases hp
      cases r.settings.validatePositions <;> simp <;> omega

theorem exists_positionAt_zero {d : Document} (hlength : d.length < Position.bound) :
    ∃ p, d.positionAt 0 = .ok p :=
  (Document.exists_positionAt_iff hlength).mpr (Nat.zero_le _)

/-! ## Events without a range -/

/-- An event has no place in a document: the family does not know its range, and its offset
is either below the text, or behind it and without line and column. -/
def Unplaced (document : Document) (family : Family.Rules) (e : Event) : Prop :=
  ∃ l, e.location = some l ∧ family.resolve? document l e.key e.arguments = none ∧
    (l.offset.toInt < 1 ∨
      (document.length : Int) < l.offset.toInt - 1 ∧ (l.line.toInt < 1 ∨ l.column.toInt < 1))

/-- No range is found just for the events without a place. -/
theorem rangeOf?_eq_none_iff (hlength : r.document.length < Position.bound) {e : Event} :
    r.rangeOf? e = none ↔ Unplaced r.document r.family e := by
  unfold rangeOf? Unplaced
  cases e.location with
  | none =>
    obtain ⟨p, hp⟩ := exists_positionAt_zero hlength
    simp [hp]
  | some l =>
    simp only [Option.or_eq_none_iff, Option.map_eq_none_iff, Option.some.injEq,
      exists_eq_left']
    refine and_congr_right fun _ ↦ ?_
    cases hoffset : l.errorOffset? with
    | none =>
      have := Event.Location.errorOffset?_eq_none_iff.mp hoffset
      simp [this]
    | some offset =>
      have hsome := Event.Location.errorOffset?_eq_some_iff.mp hoffset
      rw [Option.bind_some, pointOf?_eq_none_iff r hlength,
        Event.Location.position?_eq_none_iff]
      constructor
      · rintro ⟨hlt, hunknown⟩
        exact Or.inr ⟨by omega, hunknown⟩
      · rintro (hbelow | ⟨hlt, hunknown⟩)
        · omega
        · exact ⟨by omega, hunknown⟩

/-- A report that drops an event whatever the log holds has no range for it. -/
theorem forall_report_eq_dropped_iff {e : Event} :
    (∀ log, r.report log e = (log, .dropped)) ↔ r.rangeOf? e = none := by
  constructor
  · intro h
    rcases r.report_cases .empty e with ⟨hd, -⟩ | ⟨d, -, ⟨-, h'⟩ | ⟨-, -, h'⟩ | ⟨-, hmem, -⟩⟩
    · simpa [diagnosticOf?] using hd
    · rw [h] at h'
      cases h'
    · rw [h] at h'
      cases h'
    · cases hmem
  · intro h log
    simp [report, diagnosticOf?, h]

/-! ## Both conditions -/

/-- **When an event is dropped and when it stops the parser.**  An event is dropped for want
of a range just if it is `Unplaced`, fatal or not, whatever the log holds.  It stops the
parser just if it is not `Unplaced`, it is fatal, and neither the settings nor the family
tolerate it; the error then says what the event says.  So the log, the formatters and the
validation of positions have no say in either. -/
theorem drop_and_abort_iff (log : Diagnostic.Log) (e : Event)
    (hlength : r.document.length < Position.bound) :
    (r.rangeOf? e = none ↔ Unplaced r.document r.family e) ∧
      ((∀ log', r.report log' e = (log', .dropped)) ↔ Unplaced r.document r.family e) ∧
      (∀ abort, (r.report log e).2 = .aborted abort ↔
        ¬ Unplaced r.document r.family e ∧ e.severity = .fatal ∧
          r.settings.continueAfterFatal = false ∧ r.family.toleratesFatal e.key = false ∧
          e.key ∉ r.settings.toleratedKeys ∧
          abort = {
            message := r.formatters.format r.settings.locale e.domain e.key e.arguments
            key := e.key
            location := e.location
            cause := e.exception }) ∧
      ∀ log' formatters validatePositions,
        let r' : Reporter := { r with
          formatters := formatters
          settings.validatePositions := validatePositions }
        (r'.rangeOf? e = none ↔ r.rangeOf? e = none) ∧
          ((∃ abort, (r'.report log' e).2 = .aborted abort) ↔
            ∃ abort, (r.report log e).2 = .aborted abort) := by
  have hrange := r.rangeOf?_eq_none_iff hlength (e := e)
  refine ⟨hrange, (r.forall_report_eq_dropped_iff).trans hrange, ?_, ?_⟩
  · intro abort
    rw [report_snd_eq_aborted_iff, halts_iff, ← hrange, ← ne_eq, ← Option.isSome_iff_ne_none]
    simp only [and_assoc]
    rfl
  · intro log' formatters validatePositions r'
    have hrange' : r'.rangeOf? e = none ↔ r.rangeOf? e = none :=
      (r'.rangeOf?_eq_none_iff hlength).trans hrange.symm
    refine ⟨hrange', ?_⟩
    have hsome : (r'.rangeOf? e).isSome = (r.rangeOf? e).isSome := by
      rw [Bool.eq_iff_iff, Option.isSome_iff_ne_none, Option.isSome_iff_ne_none, ne_eq, ne_eq,
        hrange']
    have hhalts : r'.halts e = r.halts e := by
      rw [halts, halts, hsome]
      rfl
    simp only [report_snd_eq_aborted_iff, hhalts, exists_and_left, exists_eq, and_true]

/-- A fatal error behind the end of the document, at an unknown line, is dropped and stops
nothing. -/
theorem drop_of_fatal_behind_end :
    let r : Reporter := ⟨.ofString "<a>", Family.xml, .builtin, {}⟩
    let e : Event := ⟨"urn:x", "E", [], .fatal, some ⟨9, -1, 4⟩, none⟩
    r.document.length < Position.bound ∧ Unplaced r.document r.family e ∧
      ∀ log, r.report log e = (log, .dropped) := by
  intro r e
  have hlength : r.document.length < Position.bound := by decide +kernel
  have hunplaced : Unplaced r.document r.family e :=
    ⟨⟨9, -1, 4⟩, rfl, by decide +kernel, Or.inr ⟨by decide +kernel, Or.inl (by decide)⟩⟩
  exact ⟨hlength, hunplaced, (drop_and_abort_iff r .empty e hlength).2.1.mpr hunplaced⟩

end Reporter

end XmlDiagnostics
