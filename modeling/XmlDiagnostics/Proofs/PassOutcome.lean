import XmlDiagnostics.Proofs.Reporting
import XmlDiagnostics.Pass

/-!
# What a pass leaves

A pass is a loop with an early exit over a log that drops, repeats and records.  Here it is
compared with a specification that has no loop and no log: `Pass.Outcome` names the event
that ends the pass by its index, and the diagnostics by the events up to that index.

`reportAll_eq` carries the induction.  The log is generalised in it, since the tail of a
pass goes on with the log of its head.
-/

namespace XmlDiagnostics

namespace Pass

/-! ## The loop in closed form -/

section ReportAll

variable (r : Reporter) (log : Diagnostic.Log)

/-- An event that stops the parser ends the loop, and its diagnostic is recorded first. -/
theorem reportAll_cons_of_halts {e : Event} (rest : List Event) (h : r.halts e = true) :
    reportAll r log (e :: rest) =
      ⟨log.recordAll (r.diagnosticOf? e).toList, some (r.abortOf e)⟩ := by
  have hsnd := r.report_of_halts log e h
  have hfst := r.report_fst log e
  unfold reportAll
  cases hrep : r.report log e with
  | mk log' verdict =>
    rw [hrep] at hsnd hfst
    cases hsnd
    rw [← hfst]

/-- An event that does not stop the parser hands its log on. -/
theorem reportAll_cons_of_not_halts {e : Event} (rest : List Event) (h : r.halts e = false) :
    reportAll r log (e :: rest) =
      reportAll r (log.recordAll (r.diagnosticOf? e).toList) rest := by
  have hsnd : ∀ a, (r.report log e).2 ≠ .aborted a := by
    intro a ha
    rw [Reporter.report_snd_eq_aborted_iff, h] at ha
    exact absurd ha.1 Bool.false_ne_true
  have hfst := r.report_fst log e
  rw [← hfst]
  conv => lhs; unfold reportAll
  cases hrep : r.report log e with
  | mk log' verdict =>
    rw [hrep] at hsnd
    cases verdict with
    | recorded message => rfl
    | dropped => rfl
    | aborted a => exact absurd rfl (hsnd a)

/-- The loop in closed form: it records the diagnostics of the events up to and including
the first that stops the parser, and gives the error of that event. -/
theorem reportAll_eq (events : List Event) :
    reportAll r log events =
      ⟨log.recordAll ((events.take (events.findIdx r.halts + 1)).filterMap r.diagnosticOf?),
        (events.find? r.halts).map r.abortOf⟩ := by
  induction events generalizing log with
  | nil => rfl
  | cons e rest ih =>
    cases h : r.halts e with
    | true =>
      rw [reportAll_cons_of_halts r log rest h]
      simp only [List.findIdx_cons, h, cond_true, List.find?_cons_of_pos, List.take_succ_cons,
        List.take_zero, Option.map_some]
      cases hd : r.diagnosticOf? e <;> simp [hd]
    | false =>
      rw [reportAll_cons_of_not_halts r log rest h, ih]
      simp only [List.findIdx_cons, h, cond_false, List.take_succ_cons]
      rw [← Diagnostic.Log.recordAll_append]
      cases hd : r.diagnosticOf? e <;> simp [hd, h]

/-- Events behind one that stops the parser are never looked at. -/
theorem reportAll_append_of_halts {e : Event} (before after : List Event)
    (h : r.halts e = true) :
    reportAll r log (before ++ e :: after) = reportAll r log (before ++ [e]) := by
  induction before generalizing log with
  | nil => rw [List.nil_append, List.nil_append, reportAll_cons_of_halts r log after h,
      reportAll_cons_of_halts r log [] h]
  | cons x before ih =>
    cases hx : r.halts x with
    | true =>
      rw [List.cons_append, List.cons_append, reportAll_cons_of_halts r log _ hx,
        reportAll_cons_of_halts r log _ hx]
    | false =>
      rw [List.cons_append, List.cons_append, reportAll_cons_of_not_halts r log _ hx,
        reportAll_cons_of_not_halts r log _ hx, ih]

end ReportAll

/-! ## The specification -/

section Specification

variable (settings : Settings) (document : Document)

/-- What an event should leave in the log of a pass, field by field.  An event whose range
cannot be found leaves nothing. -/
def entryOf? (e : Event) : Option Diagnostic :=
  ((reporter settings document).rangeOf? e).map fun range ↦
    { range := range
      message := (reporter settings document).messageOf e
      severity := e.severity.toDiagnostic
      source := settings.reporter.source
      code := e.key }

/-- Whether an event ends a pass: it is fatal, it has a range, and nobody tolerates its
key. -/
structure Ends (e : Event) : Prop where
  /-- The event leaves a diagnostic. -/
  placed : (entryOf? settings document e).isSome = true
  /-- The parser calls it fatal. -/
  fatal : e.severity = .fatal
  /-- The settings do not let every fatal error pass. -/
  strict : settings.reporter.continueAfterFatal = false
  /-- The family does not let errors with this key pass. -/
  notTolerated : settings.family.toleratesFatal e.key = false
  /-- The settings do not let errors with this key pass. -/
  notListed : e.key ∉ settings.reporter.toleratedKeys

/-- The specification of a pass over `events`.  A pass that finishes leaves the diagnostics
of all events, the first of equal ones, in order.  A pass that stops does so at the first
event that ends it, and leaves the diagnostics of the events up to and including that
one. -/
inductive Outcome (events : List Event) : Pass → Prop where
  /-- No event ends the pass. -/
  | finished (none_ends : ∀ e ∈ events, ¬ Ends settings document e) :
      Outcome events ⟨⟨(events.filterMap (entryOf? settings document)).eraseDups⟩, none⟩
  /-- The event with index `k` is the first that ends the pass. -/
  | stopped (k : Nat) (e : Event) (at_k : events[k]? = some e)
      (ends : Ends settings document e)
      (least : ∀ j < k, ∀ x, events[j]? = some x → ¬ Ends settings document x) :
      Outcome events
        ⟨⟨((events.take (k + 1)).filterMap (entryOf? settings document)).eraseDups⟩,
          some {
            message := (reporter settings document).messageOf e
            key := e.key
            location := e.location
            cause := e.exception }⟩

/-- The events that end a pass are those that stop its reporter. -/
theorem ends_iff_halts (e : Event) :
    Ends settings document e ↔ (reporter settings document).halts e = true := by
  have hplaced : (entryOf? settings document e).isSome =
      ((reporter settings document).rangeOf? e).isSome := Option.isSome_map
  rw [Reporter.halts_iff, ← hplaced]
  constructor
  · rintro ⟨placed, fatal, strict, notTolerated, notListed⟩
    exact ⟨placed, fatal, strict, notTolerated, notListed⟩
  · rintro ⟨placed, fatal, strict, notTolerated, notListed⟩
    exact ⟨placed, fatal, strict, notTolerated, notListed⟩

/-- A pass is the loop in closed form, from the log without diagnostics. -/
theorem run_eq (events : List Event) :
    run settings document events =
      ⟨⟨((events.take (events.findIdx (reporter settings document).halts + 1)).filterMap
          (entryOf? settings document)).eraseDups⟩,
        (events.find? (reporter settings document).halts).map
          (reporter settings document).abortOf⟩ := by
  rw [run, reportAll_eq]
  exact congrArg₂ Pass.mk
    (Diagnostic.Log.ext (Diagnostic.Log.entries_recordAll_empty _)) rfl

theorem exists_of_mem_entries_run {events : List Event} {d : Diagnostic}
    (h : d ∈ (run settings document events).log.entries) :
    ∃ e ∈ events, (reporter settings document).diagnosticOf? e = some d := by
  rw [run_eq, List.mem_eraseDups] at h
  obtain ⟨e, he, hd⟩ := List.mem_filterMap.mp h
  exact ⟨e, List.mem_of_mem_take he, hd⟩

/-- Where no event ends a pass, the pass finishes. -/
theorem run_of_none_ends {events : List Event}
    (h : ∀ e ∈ events, ¬ Ends settings document e) :
    run settings document events =
      ⟨⟨(events.filterMap (entryOf? settings document)).eraseDups⟩, none⟩ := by
  have hhalts : ∀ e ∈ events, (reporter settings document).halts e = false := by
    intro e he
    rw [← Bool.not_eq_true, ← ends_iff_halts]
    exact h e he
  have hidx : events.findIdx (reporter settings document).halts = events.length :=
    List.findIdx_eq_length.mpr hhalts
  have hfind : events.find? (reporter settings document).halts = none :=
    List.find?_eq_none.mpr fun e he ↦ by simp [hhalts e he]
  rw [run_eq, hidx, hfind, List.take_of_length_le (Nat.le_succ _)]
  rfl

/-- Where an event is the first that ends a pass, the pass stops at it. -/
theorem run_of_first_end {events : List Event} {k : Nat} {e : Event}
    (hk : events[k]? = some e) (hends : Ends settings document e)
    (hleast : ∀ j < k, ∀ x, events[j]? = some x → ¬ Ends settings document x) :
    run settings document events =
      ⟨⟨((events.take (k + 1)).filterMap (entryOf? settings document)).eraseDups⟩,
        some ((reporter settings document).abortOf e)⟩ := by
  obtain ⟨hlt, rfl⟩ := List.getElem?_eq_some_iff.mp hk
  have hhalts := (ends_iff_halts settings document events[k]).mp hends
  have hbefore : ∀ j (hj : j < k), (reporter settings document).halts events[j] = false := by
    intro j hj
    rw [← Bool.not_eq_true, ← ends_iff_halts]
    exact hleast j hj _ (List.getElem?_eq_getElem (Nat.lt_trans hj hlt))
  have hidx : events.findIdx (reporter settings document).halts = k :=
    (List.findIdx_eq hlt).mpr ⟨hhalts, hbefore⟩
  have hfind : events.find? (reporter settings document).halts = some events[k] :=
    List.find?_eq_some_iff_getElem.mpr ⟨hhalts, k, hlt, rfl, fun j hj ↦ by simp [hbefore j hj]⟩
  rw [run_eq, hidx, hfind]
  rfl

/-- **A pass refines its specification.**  The outcome of a pass is the one that the
specification allows, and the only one.  Events behind one that ends the pass change
nothing, however many they are. -/
theorem outcome_iff_eq_run (events : List Event) :
    (∀ p, Outcome settings document events p ↔ p = run settings document events) ∧
      ∀ k e later, events[k]? = some e → Ends settings document e →
        run settings document (events.take (k + 1) ++ later) =
          run settings document events := by
  constructor
  · intro p
    constructor
    · rintro (none_ends | ⟨k, e, at_k, ends, least⟩)
      · exact (run_of_none_ends settings document none_ends).symm
      · exact (run_of_first_end settings document at_k ends least).symm
    · rintro rfl
      by_cases hnone : ∀ e ∈ events, ¬ Ends settings document e
      · rw [run_of_none_ends settings document hnone]
        exact .finished hnone
      · -- The index comes from the search, which gives the least one.
        have hlt : events.findIdx (reporter settings document).halts < events.length := by
          rw [List.findIdx_lt_length]
          push Not at hnone
          obtain ⟨e, he, hends⟩ := hnone
          exact ⟨e, he, (ends_iff_halts settings document e).mp hends⟩
        have hends : Ends settings document
            events[events.findIdx (reporter settings document).halts] :=
          (ends_iff_halts settings document _).mpr List.findIdx_getElem
        have hleast : ∀ j < events.findIdx (reporter settings document).halts, ∀ x,
            events[j]? = some x → ¬ Ends settings document x := by
          intro j hj x hx hx_ends
          obtain ⟨hjlt, rfl⟩ := List.getElem?_eq_some_iff.mp hx
          exact absurd ((ends_iff_halts settings document _).mp hx_ends)
            (by rw [List.not_of_lt_findIdx hj]; exact Bool.false_ne_true)
        have hat := List.getElem?_eq_getElem hlt
        rw [run_of_first_end settings document hat hends hleast]
        exact .stopped _ _ hat hends hleast
  · intro k e later hk hends
    obtain ⟨hlt, rfl⟩ := List.getElem?_eq_some_iff.mp hk
    have hhalts := (ends_iff_halts settings document _).mp hends
    rw [List.take_succ_eq_append_getElem hlt, List.append_assoc, List.singleton_append,
      run, run, reportAll_append_of_halts _ _ _ _ hhalts]
    conv => rhs; rw [← List.take_append_drop k events, List.drop_eq_getElem_cons hlt,
      reportAll_append_of_halts _ _ _ _ hhalts]

/-- A fatal error ends the pass although its diagnostic is a repetition, and the event
behind it is not reported. -/
theorem outcome_of_repeated_fatal :
    let repeated : Event := ⟨"urn:x", "E", [], .fatal, some ⟨2, -1, -1⟩, none⟩
    let events := [{ repeated with severity := .error }, repeated, { repeated with key := "F" }]
    Ends {} (.ofString "<a>") repeated ∧
      Outcome {} (.ofString "<a>") events
        ⟨⟨[⟨⟨⟨0, 1⟩, ⟨0, 1⟩⟩, "urn:x#E", .error, "xml", "E"⟩]⟩,
          some ⟨"urn:x#E", "E", some ⟨2, -1, -1⟩, none⟩⟩ ∧
      run {} (.ofString "<a>") (events.take 2 ++ []) = run {} (.ofString "<a>") events := by
  intro repeated events
  have hends : Ends {} (.ofString "<a>") repeated :=
    ⟨by decide +kernel, rfl, rfl, by decide +kernel, by decide⟩
  obtain ⟨hrefines, hlater⟩ := outcome_iff_eq_run {} (.ofString "<a>") events
  exact ⟨hends, (hrefines _).mpr (by decide +kernel), hlater 1 repeated [] rfl hends⟩

end Specification

end Pass

end XmlDiagnostics
