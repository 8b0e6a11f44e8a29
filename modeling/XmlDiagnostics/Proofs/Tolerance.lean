import XmlDiagnostics.Proofs.Lockstep

/-!
# Settings that tolerate more

Two settings say which fatal errors let the parser go on: one lets all of them pass, the other
lists keys.  Neither has a say in what is recorded.  So all that happens where settings
tolerate more is that a pass stops later or not at all, and that more diagnostics stand behind
the same ones (`Pass.run_of_relaxes`).

Passes under different settings do not go in lockstep, since one of them may stop in the
middle.  They are compared in closed form: by the index at which each stops, and by the
diagnostics of the events up to there.
-/

namespace XmlDiagnostics

/-- Settings tolerate a key if a fatal error with it lets the parser go on. -/
def Settings.Tolerates (settings : Settings) (key : String) : Prop :=
  settings.reporter.continueAfterFatal = true ∨ settings.family.toleratesFatal key = true ∨
    key ∈ settings.reporter.toleratedKeys

/-- Settings relax others if they differ from them only in which fatal errors let the parser
go on, and tolerate every key that the others tolerate. -/
structure Settings.Relaxes (relaxed strict : Settings) : Prop where
  /-- The families are the same. -/
  family_eq : relaxed.family = strict.family
  /-- The labels of the tool are the same. -/
  source_eq : relaxed.reporter.source = strict.reporter.source
  /-- The languages are the same. -/
  locale_eq : relaxed.reporter.locale = strict.reporter.locale
  /-- Positions are validated under both or under none. -/
  validatePositions_eq :
    relaxed.reporter.validatePositions = strict.reporter.validatePositions
  /-- What the strict settings tolerate, the relaxed ones tolerate. -/
  tolerates_of_tolerates : ∀ key, strict.Tolerates key → relaxed.Tolerates key

namespace Pass

/-- An event stops a pass just if it has a range, is fatal, and its key is not tolerated. -/
theorem halts_reporter_iff (settings : Settings) (document : Document) (e : Event) :
    (reporter settings document).halts e = true ↔
      ((reporter settings document).rangeOf? e).isSome = true ∧ e.severity = .fatal ∧
        ¬ settings.Tolerates e.key := by
  rw [Reporter.halts_iff, Settings.Tolerates, not_or, not_or, Bool.not_eq_true,
    Bool.not_eq_true]
  rfl

section Relaxed

variable {relaxed strict : Settings} (h : relaxed.Relaxes strict) (document : Document)
include h

theorem pointOf?_of_relaxes :
    (reporter relaxed document).pointOf? = (reporter strict document).pointOf? := by
  funext location offset
  simp only [Reporter.pointOf?, reporter, h.validatePositions_eq]

/-- What is tolerated has no say in the range of an event. -/
theorem rangeOf?_of_relaxes :
    (reporter relaxed document).rangeOf? = (reporter strict document).rangeOf? := by
  funext e
  simp only [Reporter.rangeOf?, pointOf?_of_relaxes h]
  simp only [reporter, h.family_eq]

theorem diagnosticOf?_of_relaxes :
    (reporter relaxed document).diagnosticOf? = (reporter strict document).diagnosticOf? := by
  funext e
  rw [Reporter.diagnosticOf?, Reporter.diagnosticOf?, rangeOf?_of_relaxes h]
  refine congrArg (Option.map · _) (funext fun range ↦ ?_)
  simp only [Reporter.diagnosticAt, Reporter.messageOf, reporter, h.source_eq, h.locale_eq]

/-- An event that stops a pass under relaxed settings stops it under strict ones. -/
theorem halts_of_relaxes {e : Event} (hhalts : (reporter relaxed document).halts e = true) :
    (reporter strict document).halts e = true := by
  rw [halts_reporter_iff] at hhalts ⊢
  obtain ⟨placed, fatal, notTolerated⟩ := hhalts
  refine ⟨?_, fatal, fun tolerated ↦ notTolerated (h.tolerates_of_tolerates _ tolerated)⟩
  rwa [rangeOf?_of_relaxes h] at placed

/-- Under relaxed settings the search for an event that stops the pass goes at least as
far. -/
theorem findIdx_halts_le_of_relaxes (events : List Event) :
    events.findIdx (reporter strict document).halts ≤
      events.findIdx (reporter relaxed document).halts :=
  List.findIdx_le_findIdx fun _ _ hhalts ↦ halts_of_relaxes h document hhalts

/-- Under relaxed settings a pass records what it records under strict ones, and maybe more
behind that. -/
theorem entries_run_prefix_of_relaxes (events : List Event) :
    (run strict document events).log.entries <+: (run relaxed document events).log.entries := by
  rw [run, run, reportAll_eq, reportAll_eq, diagnosticOf?_of_relaxes h]
  refine Diagnostic.Log.recordAll_prefix_recordAll _ (List.IsPrefix.filterMap _ ?_)
  exact List.take_prefix_take_left
    (Nat.succ_le_succ (findIdx_halts_le_of_relaxes h document events))

/-- A pass that finishes under strict settings finishes under relaxed ones, with the same
log. -/
theorem finishes_of_relaxes {events : List Event}
    (hfinished : (run strict document events).abort = none) :
    (run relaxed document events).abort = none ∧
      (run relaxed document events).log = (run strict document events).log := by
  have hstrict := abort_run_eq_none_iff.mp hfinished
  have hrelaxed : events.findIdx (reporter relaxed document).halts = events.length :=
    Nat.le_antisymm List.findIdx_le_length
      (hstrict ▸ findIdx_halts_le_of_relaxes h document events)
  refine ⟨abort_run_eq_none_iff.mpr hrelaxed, ?_⟩
  rw [run, run, reportAll_eq, reportAll_eq, diagnosticOf?_of_relaxes h, hstrict, hrelaxed]

end Relaxed

/-- **Settings that tolerate more only extend a pass.**  Take settings that differ only in
which fatal errors let the parser go on, the second ones tolerating at least as much.  The
diagnostics of the pass under the first are the beginning of those under the second.  If the
first pass finishes, so does the second, with the same diagnostics.  If both are stopped, the
event that stops the second is the one that stops the first, or a later one. -/
theorem run_of_relaxes {relaxed strict : Settings} (h : relaxed.Relaxes strict)
    (document : Document) (events : List Event) :
    let p := run strict document events
    let p' := run relaxed document events
    p.log.entries <+: p'.log.entries ∧
      (p.abort = none → p'.abort = none ∧ p'.log = p.log) ∧
      (p.abort ≠ none → p'.abort ≠ none →
        ∃ k k', (∀ j, StopsAt strict document events j ↔ j = k) ∧
          (∀ j, StopsAt relaxed document events j ↔ j = k') ∧ k ≤ k') := by
  intro p p'
  refine ⟨entries_run_prefix_of_relaxes h document events,
    fun hfinished ↦ finishes_of_relaxes h document hfinished, ?_⟩
  intro hstopped hstopped'
  obtain ⟨k, hk⟩ := exists_stopsAt_iff_eq hstopped
  obtain ⟨k', hk'⟩ := exists_stopsAt_iff_eq hstopped'
  refine ⟨k, k', hk, hk', ?_⟩
  rw [← (stopsAt_iff.mp ((hk k).mpr rfl)).2, ← (stopsAt_iff.mp ((hk' k').mpr rfl)).2]
  exact findIdx_halts_le_of_relaxes h document events

/-- One key more that is tolerated: the pass goes on from its first fatal error to its second
one, and the repetition between them adds nothing. -/
theorem run_of_relaxes_listed_key :
    let document : Document := .ofString "<a>"
    let first : Event := ⟨"urn:x", "E", [], .fatal, some ⟨2, -1, -1⟩, none⟩
    let events := [first, { first with severity := .error }, { first with key := "F" }]
    let relaxed : Settings := { reporter.toleratedKeys := ["E"] }
    relaxed.Relaxes {} ∧
      (run {} document events).log.size = 1 ∧ (run relaxed document events).log.size = 2 ∧
      (run {} document events).log.entries <+: (run relaxed document events).log.entries ∧
      StopsAt {} document events 0 ∧ StopsAt relaxed document events 2 ∧
      ∃ k k', (∀ j, StopsAt {} document events j ↔ j = k) ∧
        (∀ j, StopsAt relaxed document events j ↔ j = k') ∧ k ≤ k' := by
  intro document first events relaxed
  have hrelaxes : relaxed.Relaxes {} := by
    refine ⟨rfl, rfl, rfl, rfl, ?_⟩
    rintro key (hall | hfamily | hlisted)
    · cases hall
    · exact Or.inr (Or.inl hfamily)
    · cases hlisted
  have hstops : StopsAt {} document events 0 :=
    stopsAt_iff.mpr ⟨by decide, by decide +kernel⟩
  have hstops' : StopsAt relaxed document events 2 :=
    stopsAt_iff.mpr ⟨by decide, by decide +kernel⟩
  obtain ⟨hextends, -, hstopped⟩ := run_of_relaxes hrelaxes document events
  exact ⟨hrelaxes, by decide +kernel, by decide +kernel, hextends, hstops, hstops',
    hstopped (by decide +kernel) (by decide +kernel)⟩

end Pass

end XmlDiagnostics
