import XmlDiagnostics.Proofs.Reporting
import XmlDiagnostics.Session

/-!
# The log of a session

A session goes on after aborts, and its reporter may change under it.  What never changes
is the bookkeeping: no diagnostic stands in the log twice, the log only grows at its end,
and the verdict on an event says truly what happened to the log.

`Accounts` is what one report owes to the log; `run_append_fst` and `run_append_snd` cut a
run at any of its steps, so that a fact about one step is a fact about every step of every
run.
-/

namespace XmlDiagnostics.Session

variable (s : Session)

/-! ## Runs, cut in two -/

theorem run_cons_fst (step : Step) (others : List Step) :
    (s.run (step :: others)).1 = ((s.step step).1.run others).1 := rfl

theorem run_cons_snd (step : Step) (others : List Step) :
    (s.run (step :: others)).2 = (s.step step).2 :: ((s.step step).1.run others).2 := rfl

/-- The second part of a run starts from the session that the first part leaves. -/
theorem run_append_fst (before after : List Step) :
    (s.run (before ++ after)).1 = ((s.run before).1.run after).1 := by
  induction before generalizing s with
  | nil => rfl
  | cons step before ih => exact ih (s.step step).1

/-- The answers to the two parts of a run stand one after the other. -/
theorem run_append_snd (before after : List Step) :
    (s.run (before ++ after)).2 = (s.run before).2 ++ ((s.run before).1.run after).2 := by
  induction before generalizing s with
  | nil => rfl
  | cons step before ih =>
    rw [List.cons_append, run_cons_snd, ih, run_cons_snd, run_cons_fst, List.cons_append]

@[simp] theorem length_run_snd (steps : List Step) : (s.run steps).2.length = steps.length := by
  induction steps generalizing s with
  | nil => rfl
  | cons step steps ih => rw [run_cons_snd, List.length_cons, ih, List.length_cons]

/-! ## What the steps do to the log -/

theorem log_step_report (e : Event) :
    (s.step (.report e)).1.log = s.log.recordAll (s.reporter.diagnosticOf? e).toList :=
  s.reporter.report_fst s.log e

@[simp] theorem log_step_register (address : String) (formatter : Message.Wording) :
    (s.step (.register address formatter)).1.log = s.log := rfl

@[simp] theorem log_step_restart (family : Family.Rules) (formatters : Message.Registry)
    (settings : ReporterSettings) :
    (s.step (.restart family formatters settings)).1.log = s.log := rfl

/-- Whatever the step, at most one diagnostic is recorded. -/
theorem exists_log_step_eq_recordAll (step : Step) :
    ∃ d : Option Diagnostic, (s.step step).1.log = s.log.recordAll d.toList := by
  cases step with
  | report e => exact ⟨_, s.log_step_report e⟩
  | register address formatter => exact ⟨none, rfl⟩
  | restart family formatters settings => exact ⟨none, rfl⟩

theorem nodup_step (h : s.log.entries.Nodup) (step : Step) :
    (s.step step).1.log.entries.Nodup := by
  obtain ⟨d, hd⟩ := s.exists_log_step_eq_recordAll step
  rw [hd]
  cases d with
  | none => exact h
  | some d => exact Diagnostic.Log.nodup_record h d

theorem nodup_run (h : s.log.entries.Nodup) (steps : List Step) :
    (s.run steps).1.log.entries.Nodup := by
  induction steps generalizing s with
  | nil => exact h
  | cons step steps ih => exact ih (s.step step).1 (s.nodup_step h step)

theorem prefix_step (step : Step) : s.log.entries <+: (s.step step).1.log.entries := by
  obtain ⟨d, hd⟩ := s.exists_log_step_eq_recordAll step
  rw [hd]
  exact Diagnostic.Log.prefix_recordAll s.log d.toList

theorem prefix_run (steps : List Step) : s.log.entries <+: (s.run steps).1.log.entries := by
  induction steps generalizing s with
  | nil => exact List.prefix_rfl
  | cons step steps ih => exact (s.prefix_step step).trans (ih (s.step step).1)

/-- A run of reports records the diagnostics of its events, one after the other. -/
theorem log_run_map_report (events : List Event) :
    (s.run (events.map .report)).1.log =
      s.log.recordAll (events.filterMap s.reporter.diagnosticOf?) := by
  induction events generalizing s with
  | nil => rfl
  | cons e events ih =>
    have hreporter : (s.step (.report e)).1.reporter = s.reporter := rfl
    rw [List.map_cons, run_cons_fst, ih, log_step_report, hreporter,
      ← Diagnostic.Log.recordAll_append]
    cases hd : s.reporter.diagnosticOf? e <;> simp [hd]

/-! ## What a report owes to the log -/

/-- The verdict on an event and the change of the log agree.  `s` is the session before the
report and `s'` the one after it. -/
structure Accounts (s s' : Session) (verdict : Verdict) : Prop where
  /-- The entries stay, and at most one is added behind them. -/
  grows : s'.log.entries = s.log.entries ∨ ∃ d, s'.log.entries = s.log.entries ++ [d]
  /-- A message is given just if a diagnostic with this message was added and the parser
  goes on. -/
  recorded_iff : ∀ message, verdict = .recorded message ↔
    (∃ d, s'.log.entries = s.log.entries ++ [d] ∧ d.message = message) ∧
      ∀ abort, verdict ≠ .aborted abort
  /-- An event that was dropped left the log as it was. -/
  dropped : verdict = .dropped → s'.log = s.log
  /-- An error that stops the parser is in the log, be it from now or from before. -/
  aborted : ∀ abort, verdict = .aborted abort →
    ∃ d ∈ s'.log.entries, d.severity = .error ∧ d.code = abort.key ∧
      d.message = abort.message ∧ d.source = s.reporter.settings.source

/-- A verdict that nothing was recorded is in order if the log stayed as it was. -/
theorem Accounts.of_dropped {s s' : Session} (h : s'.log = s.log) : Accounts s s' .dropped where
  grows := Or.inl (by rw [h])
  recorded_iff := by
    intro message
    simp [h]
  dropped _ := h
  aborted := by
    intro abort habort
    cases habort

/-- A message is in order if its diagnostic is new at the end of the log. -/
theorem Accounts.of_recorded {s s' : Session} {d : Diagnostic}
    (h : s'.log.entries = s.log.entries ++ [d]) : Accounts s s' (.recorded d.message) where
  grows := Or.inr ⟨d, h⟩
  recorded_iff := by
    intro message
    simp [h]
  dropped := by
    intro hdropped
    cases hdropped
  aborted := by
    intro abort habort
    cases habort

/-- An error is in order if its diagnostic was recorded, even where that changed nothing. -/
theorem Accounts.of_aborted {s s' : Session} {d : Diagnostic} {abort : Abort}
    (h : s'.log = s.log.record d) (hseverity : d.severity = .error)
    (hcode : d.code = abort.key) (hmessage : d.message = abort.message)
    (hsource : d.source = s.reporter.settings.source) : Accounts s s' (.aborted abort) where
  grows := by
    rw [h]
    rcases s.log.entries_record_eq_append d with hd | hd
    · exact Or.inl hd
    · exact Or.inr ⟨d, hd⟩
  recorded_iff := by
    intro message
    simp
  dropped := by
    intro hdropped
    cases hdropped
  aborted := by
    intro abort' habort
    cases habort
    exact ⟨d, by rw [h]; exact s.log.mem_record d, hseverity, hcode, hmessage, hsource⟩

/-- Every report accounts for what it does to the log. -/
theorem accounts_step_report (e : Event) :
    Accounts s (s.step (.report e)).1 (s.reporter.report s.log e).2 := by
  have hlog : (s.step (.report e)).1.log = (s.reporter.report s.log e).1 := rfl
  rcases s.reporter.report_cases s.log e with ⟨-, h⟩ | ⟨d, hd, ⟨hs, h⟩ | ⟨-, -, h⟩ | ⟨-, -, h⟩⟩
  · rw [h] at hlog ⊢
    exact .of_dropped hlog
  · rw [h] at hlog ⊢
    have hfatal : e.severity = .fatal := by
      simp only [Reporter.stopsAt, Bool.and_eq_true, decide_eq_true_eq] at hs
      exact hs.1.1
    obtain ⟨range, -, rfl⟩ := Option.map_eq_some_iff.mp hd
    refine .of_aborted hlog ?_ rfl rfl rfl
    rw [Reporter.diagnosticAt, hfatal]
    rfl
  · rw [h] at hlog ⊢
    exact .of_recorded (by rw [hlog])
  · rw [h] at hlog ⊢
    exact .of_dropped hlog

/-- **The log of a session is kept in order.**  Take any run from an empty log and any step
of it.  No diagnostic stands twice in the log before or after the step, and what is there
before the step is the beginning of all later logs.  A report accounts for what it does,
and the other steps leave the log alone. -/
theorem run_accounts (r : Reporter) (before : List Step) (step : Step) (after : List Step) :
    let s := ((start r).run before).1
    let s' := ((start r).run (before ++ [step])).1
    s.log.entries.Nodup ∧ s'.log.entries.Nodup ∧
      s.log.entries <+: ((start r).run (before ++ step :: after)).1.log.entries ∧
      match step with
      | .report _ =>
        ∃ verdict,
          ((start r).run (before ++ step :: after)).2[before.length]? = some (.verdict verdict) ∧
            Accounts s s' verdict
      | .register _ _ => s'.log = s.log
      | .restart _ _ _ => s'.log = s.log := by
  intro s s'
  have hempty : (start r).log.entries.Nodup := List.nodup_nil
  have hs' : s' = (s.step step).1 := run_append_fst (start r) before [step]
  refine ⟨nodup_run _ hempty before, nodup_run _ hempty (before ++ [step]), ?_, ?_⟩
  · rw [run_append_fst]
    exact prefix_run s (step :: after)
  · cases step with
    | report e =>
      refine ⟨(s.reporter.report s.log e).2, ?_, ?_⟩
      · rw [run_append_snd, List.getElem?_append_right (by simp), length_run_snd, Nat.sub_self]
        rfl
      · rw [hs']
        exact accounts_step_report s e
    | register address formatter => rw [hs', log_step_register]
    | restart family formatters settings => rw [hs', log_step_restart]

end XmlDiagnostics.Session
