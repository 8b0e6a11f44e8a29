import XmlDiagnostics.Proofs.SessionLog

/-!
# Reporting the same events again

The diagnostic of an event, and whether the event stops the parser, do not depend on the log.
The log only decides whether the diagnostic is new.  So the reports of a session amount to a
set of diagnostics: the same events leave the same entries, in whatever order they come and
however often, and a log that has seen an event has nothing to learn from it.

`Reporter.Covers` says that a log has nothing to learn from an event.  `report_of_covers` is
the step, `run_of_covers` the run, and the second of two equal rounds of reports is such a run.
-/

namespace XmlDiagnostics

/-- The verdict on an event that was reported before: it stops the parser as it did then, and
is dropped if it did not. -/
def Verdict.repeated : Verdict → Verdict
  | .aborted abort => .aborted abort
  | .recorded _ => .dropped
  | .dropped => .dropped

namespace Reporter

variable (r : Reporter)

/-- A log covers an event if it holds the diagnostic of the event, should there be one. -/
def Covers (log : Diagnostic.Log) (e : Event) : Prop :=
  ∀ d, r.diagnosticOf? e = some d → d ∈ log.entries

/-- A log that holds the diagnostics of several events covers each of them. -/
theorem covers_recordAll (log : Diagnostic.Log) {events : List Event} {e : Event}
    (he : e ∈ events) : r.Covers (log.recordAll (events.filterMap r.diagnosticOf?)) e := by
  intro d hd
  exact Diagnostic.Log.mem_entries_recordAll.mpr (Or.inr (List.mem_filterMap.mpr ⟨e, he, hd⟩))

/-- An event that a log covers leaves it as it is.  The verdict repeats the one that any other
log gives on the event. -/
theorem report_of_covers {log : Diagnostic.Log} {e : Event} (h : r.Covers log e)
    (other : Diagnostic.Log) : r.report log e = (log, (r.report other e).2.repeated) := by
  cases hd : r.diagnosticOf? e with
  | none =>
    simp only [report, hd]
    rfl
  | some d =>
    have hmem : d ∈ log.entries := h d hd
    have hlacks : log.lacks d = false := by
      simpa [Diagnostic.Log.lacks] using hmem
    simp only [report, hd, Diagnostic.Log.record_of_mem hmem, hlacks]
    cases r.stopsAt e with
    | true => rfl
    | false => cases other.lacks d <;> rfl

end Reporter

namespace Session

/-- The answer to a step that was taken before. -/
def Answer.repeated : Answer → Answer
  | .verdict given => .verdict given.repeated
  | .registered replaced => .registered replaced
  | .restarted => .restarted

variable (s : Session)

@[simp] theorem reporter_run_map_report (events : List Event) :
    (s.run (events.map .report)).1.reporter = s.reporter := by
  induction events generalizing s with
  | nil => rfl
  | cons e events ih => exact ih (s.step (.report e)).1

/-- Reports of events that the log covers leave the session as it is.  The answers repeat
those that the reporter gives with any other log. -/
theorem run_of_covers {events : List Event} (h : ∀ e ∈ events, s.reporter.Covers s.log e)
    (other : Diagnostic.Log) :
    s.run (events.map .report) =
      (s, ((⟨s.reporter, other⟩ : Session).run (events.map .report)).2.map Answer.repeated) := by
  -- The other log grows on the way; what it is has no say in the answers.
  induction events generalizing other with
  | nil => rfl
  | cons e events ih =>
    obtain ⟨he, hevents⟩ := List.forall_mem_cons.mp h
    have hstep : s.step (.report e) =
        (s, (((⟨s.reporter, other⟩ : Session).step (.report e)).2).repeated) := by
      simp only [step, s.reporter.report_of_covers he other]
      rfl
    rw [List.map_cons, run_cons_snd, List.map_cons, run, hstep]
    exact congrArg (fun p : Session × List Answer ↦ (p.1, _ :: p.2)) (ih hevents _)

/-- After a round of reports the log covers all events of the round. -/
theorem covers_run {events : List Event} {e : Event} (he : e ∈ events) :
    s.reporter.Covers (s.run (events.map .report)).1.log e := by
  rw [log_run_map_report]
  exact s.reporter.covers_recordAll s.log he

/-- A second round of the same reports leaves the session as it is, and repeats the answers of
the first round. -/
theorem run_again (events : List Event) :
    (s.run (events.map .report)).1.run (events.map .report) =
      ((s.run (events.map .report)).1,
        (s.run (events.map .report)).2.map Answer.repeated) := by
  have hcovers : ∀ e ∈ events, (s.run (events.map .report)).1.reporter.Covers
      (s.run (events.map .report)).1.log e := by
    intro e he
    rw [reporter_run_map_report]
    exact s.covers_run he
  have hagain := run_of_covers (s.run (events.map .report)).1 hcovers s.log
  rwa [reporter_run_map_report] at hagain

/-- A new reporter with the settings of the old one changes nothing but the answers, which
begin with the one to the restart. -/
theorem run_restart_self (steps : List Step) :
    s.run (.restart s.reporter.family s.reporter.formatters s.reporter.settings :: steps) =
      ((s.run steps).1, .restarted :: (s.run steps).2) := rfl

/-- The entries that reports leave in an empty log are the diagnostics of the events. -/
theorem mem_entries_run_start_iff (r : Reporter) (events : List Event) (d : Diagnostic) :
    d ∈ ((start r).run (events.map .report)).1.log.entries ↔
      ∃ e ∈ events, r.diagnosticOf? e = some d := by
  rw [log_run_map_report, Diagnostic.Log.mem_entries_recordAll, List.mem_filterMap]
  exact or_iff_right List.not_mem_nil

/-- **Reports amount to a set.**  Reports of the same events, in any order and with any
repetitions, leave the same diagnostics in an empty log, up to their order.  And whatever is in
the log before, a second round of the same reports leaves it as the first round did, with or
without a new reporter in between: each event of the second round is dropped, or stops the
parser with the error of the first round. -/
theorem run_of_same_events (r : Reporter) :
    (∀ events events' : List Event, (∀ e, e ∈ events ↔ e ∈ events') →
      ((start r).run (events.map .report)).1.log.entries.Perm
        ((start r).run (events'.map .report)).1.log.entries) ∧
      ∀ (log : Diagnostic.Log) (events : List Event),
        let first := (⟨r, log⟩ : Session).run (events.map .report)
        first.1.run (events.map .report) = (first.1, first.2.map Answer.repeated) ∧
          first.1.run (.restart r.family r.formatters r.settings :: events.map .report) =
            (first.1, .restarted :: first.2.map Answer.repeated) := by
  constructor
  · intro events events' hsame
    have hempty : (start r).log.entries.Nodup := List.nodup_nil
    rw [List.perm_ext_iff_of_nodup (nodup_run _ hempty _) (nodup_run _ hempty _)]
    intro d
    rw [mem_entries_run_start_iff, mem_entries_run_start_iff]
    simp only [hsame]
  · intro log events first
    have hagain := run_again ⟨r, log⟩ events
    have hreporter : first.1.reporter = r := reporter_run_map_report _ events
    have hrestart := run_restart_self first.1 (events.map .report)
    rw [hreporter, hagain] at hrestart
    exact ⟨hagain, hrestart⟩

/-- A fatal error stops the parser in both rounds, although its diagnostic is in the log from
the first one on.  Its repetition adds nothing, nor does another order. -/
theorem run_of_same_events_repeated_fatal :
    let r : Reporter := ⟨.ofString "<a>", Family.xml, .builtin, {}⟩
    let fatal : Event := ⟨"urn:x", "E", [], .fatal, some ⟨2, -1, -1⟩, none⟩
    let warning : Event := ⟨"urn:x", "F", [], .warning, some ⟨3, -1, -1⟩, none⟩
    let events := [fatal, warning, fatal]
    let first := (start r).run (events.map .report)
    (∀ e, e ∈ events ↔ e ∈ [warning, fatal]) ∧
      first.1.log.entries.Perm ((start r).run ([warning, fatal].map .report)).1.log.entries ∧
      first.1.log.size = 2 ∧
      first.1.run (events.map .report) = (first.1, first.2.map Answer.repeated) ∧
      first.2.map Answer.repeated =
        [.verdict (.aborted ⟨"urn:x#E", "E", some ⟨2, -1, -1⟩, none⟩), .verdict .dropped,
          .verdict (.aborted ⟨"urn:x#E", "E", some ⟨2, -1, -1⟩, none⟩)] := by
  intro r fatal warning events first
  have hsame : ∀ e, e ∈ events ↔ e ∈ [warning, fatal] := by
    intro e
    simp only [events, List.mem_cons, List.not_mem_nil, or_false]
    tauto
  obtain ⟨hperm, hrounds⟩ := run_of_same_events r
  exact ⟨hsame, hperm events _ hsame, by decide +kernel, (hrounds .empty events).1,
    by decide +kernel⟩

end Session

end XmlDiagnostics
