import Mathlib.Data.List.Forall2
import XmlDiagnostics.Proofs.PassOutcome

/-!
# Two passes in lockstep

Two passes stay together as long as their reporters treat the events alike: the same
diagnostic, if any, and the same decision to stop (`Reporter.Alike`).  Then they leave the
same log and stop at the same event, and the errors that they stop with are related as the
errors of single events are.  The events and the reporters themselves may differ.

`Pass.StopsAt` says where a pass stops, by the passes over the beginnings of its events.
-/

namespace XmlDiagnostics

/-- Two reporters treat two events alike: both find the same diagnostic, and either both stop
the parser or none does.  The errors that they would stop it with are related by `R`. -/
structure Reporter.Alike (R : Abort → Abort → Prop) (r r' : Reporter) (e e' : Event) : Prop where
  /-- Both find the same diagnostic, or none. -/
  diagnosticOf?_eq : r.diagnosticOf? e = r'.diagnosticOf? e'
  /-- Both stop the parser if they find a diagnostic, or none does. -/
  stopsAt_eq : r.stopsAt e = r'.stopsAt e'
  /-- The errors that they stop the parser with are related. -/
  abortOf_rel : R (r.abortOf e) (r'.abortOf e')

theorem Reporter.Alike.halts_eq {R : Abort → Abort → Prop} {r r' : Reporter} {e e' : Event}
    (h : Alike R r r' e e') : r.halts e = r'.halts e' := by
  rw [halts, halts, ← isSome_diagnosticOf?, ← isSome_diagnosticOf?, h.diagnosticOf?_eq,
    h.stopsAt_eq]

namespace Pass

/-! ## Events treated alike -/

/-- Two passes leave the same log, and either both finish or both stop, with errors related by
`R`. -/
inductive Alike (R : Abort → Abort → Prop) : Pass → Pass → Prop where
  /-- Both passes finish. -/
  | finished (log : Diagnostic.Log) : Alike R ⟨log, none⟩ ⟨log, none⟩
  /-- Both passes stop. -/
  | stopped (log : Diagnostic.Log) (a a' : Abort) (rel : R a a') :
      Alike R ⟨log, some a⟩ ⟨log, some a'⟩

namespace Alike

variable {R : Abort → Abort → Prop} {p p' : Pass}

/-- Passes that stop with the same error if they stop are the same. -/
theorem eq (h : Alike Eq p p') : p = p' := by
  cases h with
  | finished log => rfl
  | stopped log a a' rel => rw [rel]

theorem log_eq (h : Alike R p p') : p.log = p'.log := by
  cases h <;> rfl

/-- What the passes leave beside their logs. -/
theorem abort_cases (h : Alike R p p') :
    (p.abort = none ∧ p'.abort = none) ∨
      ∃ a a', p.abort = some a ∧ p'.abort = some a' ∧ R a a' := by
  cases h with
  | finished log => exact Or.inl ⟨rfl, rfl⟩
  | stopped log a a' rel => exact Or.inr ⟨a, a', rfl, rfl, rel⟩

end Alike

section Lockstep

variable {R : Abort → Abort → Prop} {r r' : Reporter} {events events' : List Event}

/-- Passes in lockstep leave the same log, and stop with related errors if they stop. -/
theorem reportAll_lockstep (h : List.Forall₂ (Reporter.Alike R r r') events events')
    (log : Diagnostic.Log) : Alike R (reportAll r log events) (reportAll r' log events') := by
  -- Both tails go on with one log, since events treated alike leave the same diagnostic.
  induction h generalizing log with
  | nil => exact .finished log
  | @cons e e' rest rest' halike _ ih =>
    cases hhalts : r.halts e with
    | true =>
      have hhalts' : r'.halts e' = true := halike.halts_eq.symm.trans hhalts
      rw [reportAll_cons_of_halts r log rest hhalts, reportAll_cons_of_halts r' log rest' hhalts',
        halike.diagnosticOf?_eq]
      exact .stopped _ _ _ halike.abortOf_rel
    | false =>
      have hhalts' : r'.halts e' = false := halike.halts_eq.symm.trans hhalts
      rw [reportAll_cons_of_not_halts r log rest hhalts,
        reportAll_cons_of_not_halts r' log rest' hhalts', halike.diagnosticOf?_eq]
      exact ih _

/-- Passes in lockstep stop at the same index. -/
theorem findIdx_halts_lockstep (h : List.Forall₂ (Reporter.Alike R r r') events events') :
    events.findIdx r.halts = events'.findIdx r'.halts := by
  induction h with
  | nil => rfl
  | cons halike _ ih => rw [List.findIdx_cons, List.findIdx_cons, halike.halts_eq, ih]

end Lockstep

/-! ## Where a pass stops -/

/-- A pass is stopped by the event with index `k`: the events before it let the pass finish,
and this one does not. -/
structure StopsAt (settings : Settings) (document : Document) (events : List Event) (k : Nat) :
    Prop where
  /-- The events before this one let the pass finish. -/
  finishes : (run settings document (events.take k)).abort = none
  /-- With this one the pass is stopped. -/
  stops : (run settings document (events.take (k + 1))).abort ≠ none

variable {settings : Settings} {document : Document} {events : List Event}

/-- A pass finishes just if the search for an event that stops it reaches the end. -/
theorem abort_run_eq_none_iff :
    (run settings document events).abort = none ↔
      events.findIdx (reporter settings document).halts = events.length := by
  rw [run_eq, Option.map_eq_none_iff, List.find?_eq_none, List.findIdx_eq_length]
  simp only [Bool.not_eq_true]

/-- A pass is stopped by the first event that stops its reporter. -/
theorem stopsAt_iff {k : Nat} :
    StopsAt settings document events k ↔
      k < events.length ∧ events.findIdx (reporter settings document).halts = k := by
  have hle : events.findIdx (reporter settings document).halts ≤ events.length :=
    List.findIdx_le_length
  have htake (n : Nat) : (run settings document (events.take n)).abort = none ↔
      min n (events.findIdx (reporter settings document).halts) = min n events.length := by
    rw [abort_run_eq_none_iff, List.findIdx_take, List.length_take]
  constructor
  · rintro ⟨finishes, stops⟩
    rw [htake] at finishes
    rw [ne_eq, htake] at stops
    omega
  · rintro ⟨hlt, rfl⟩
    refine ⟨(htake _).mpr (by omega), ?_⟩
    rw [ne_eq, htake]
    omega

/-- A pass that leaves an error is stopped by one of its events, and by no other. -/
theorem exists_stopsAt_iff_eq (h : (run settings document events).abort ≠ none) :
    ∃ k, ∀ j, StopsAt settings document events j ↔ j = k := by
  refine ⟨events.findIdx (reporter settings document).halts, fun j ↦ ?_⟩
  have hle : events.findIdx (reporter settings document).halts ≤ events.length :=
    List.findIdx_le_length
  rw [ne_eq, abort_run_eq_none_iff] at h
  rw [stopsAt_iff]
  omega

end Pass

end XmlDiagnostics
