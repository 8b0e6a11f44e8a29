import XmlDiagnostics.Proofs.Log
import XmlDiagnostics.Reporter

/-!
# One report

`Reporter.report` drops, records, repeats or aborts.  `report_cases` says everything that
one report can do, and the lemmas after it answer the questions that a run asks of a step:
what the log is afterwards, and when the parser has to stop.  Neither answer to the second
question depends on the log.
-/

namespace XmlDiagnostics.Reporter

variable (r : Reporter) (log : Diagnostic.Log) (e : Event)

/-- Whether reporting an event stops the parser. -/
def halts : Bool :=
  (r.rangeOf? e).isSome && r.stopsAt e

@[simp] theorem isSome_diagnosticOf? : (r.diagnosticOf? e).isSome = (r.rangeOf? e).isSome := by
  simp [diagnosticOf?]

/-- An event stops the parser just if it has a range, is fatal, and nobody tolerates its
key. -/
theorem halts_iff :
    r.halts e = true ↔
      (r.rangeOf? e).isSome = true ∧ e.severity = .fatal ∧
        r.settings.continueAfterFatal = false ∧ r.family.toleratesFatal e.key = false ∧
        e.key ∉ r.settings.toleratedKeys := by
  simp only [halts, stopsAt, toleratesFatal, Bool.and_eq_true, Bool.not_eq_true',
    Bool.or_eq_false_iff, decide_eq_true_eq, decide_eq_false_iff_not, and_assoc]

/-- All that one report can do. -/
theorem report_cases :
    (r.diagnosticOf? e = none ∧ r.report log e = (log, .dropped)) ∨
    ∃ d, r.diagnosticOf? e = some d ∧
      ((r.stopsAt e = true ∧ r.report log e = (log.record d, .aborted (r.abortOf e))) ∨
        (r.stopsAt e = false ∧ d ∉ log.entries ∧
          r.report log e = (⟨log.entries ++ [d]⟩, .recorded d.message)) ∨
        (r.stopsAt e = false ∧ d ∈ log.entries ∧ r.report log e = (log, .dropped))) := by
  unfold report
  cases hd : r.diagnosticOf? e with
  | none => exact Or.inl ⟨rfl, rfl⟩
  | some d =>
    refine Or.inr ⟨d, rfl, ?_⟩
    cases hs : r.stopsAt e with
    | true => exact Or.inl ⟨rfl, rfl⟩
    | false =>
      by_cases hmem : d ∈ log.entries
      · exact Or.inr (Or.inr ⟨rfl, hmem, by
          simp [Diagnostic.Log.lacks, Diagnostic.Log.record, hmem]⟩)
      · exact Or.inr (Or.inl ⟨rfl, hmem, by
          simp [Diagnostic.Log.lacks, Diagnostic.Log.record, hmem]⟩)

theorem report_fst : (r.report log e).1 = log.recordAll (r.diagnosticOf? e).toList := by
  unfold report
  cases r.diagnosticOf? e <;> rfl

/-- A report stops the parser just if the event has a range and stops it there. -/
theorem report_snd_eq_aborted_iff {a : Abort} :
    (r.report log e).2 = .aborted a ↔ r.halts e = true ∧ a = r.abortOf e := by
  rw [halts, ← isSome_diagnosticOf?]
  rcases report_cases r log e with ⟨hd, h⟩ | ⟨d, hd, ⟨hs, h⟩ | ⟨hs, -, h⟩ | ⟨hs, -, h⟩⟩
  · simp [h, hd]
  · simp [h, hd, hs, eq_comm]
  · simp [h, hs]
  · simp [h, hs]

theorem report_of_halts (h : r.halts e = true) :
    (r.report log e).2 = .aborted (r.abortOf e) :=
  (report_snd_eq_aborted_iff r log e).mpr ⟨h, rfl⟩

end XmlDiagnostics.Reporter
