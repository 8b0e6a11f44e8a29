import XmlDiagnostics.Proofs.Lockstep
import XmlDiagnostics.Proofs.Placement

/-!
# What the parser's own line and column can change

The parser states an offset, and a line and a column for it.  Two settings deal with that
differently: where positions are validated the line index of the document decides, and where
they are not, the parser does.

* A parser that states what the document says gets the same passes from both
  (`run_trusting_eq_run_validating`).
* Where positions are validated, what the parser states for an offset that is not behind the
  document has no influence on a pass (`run_of_restated`).

Both are about whole passes, and both are shown for single events: the passes then go in
lockstep.
-/

namespace XmlDiagnostics

/-! ## Trusted positions -/

/-- The parser states line and column of an event truly: if it knows both, and its offset is
one of the document, they are what the document says. -/
def Event.StatesTruly (document : Document) (e : Event) : Prop :=
  ∀ l, e.location = some l → 1 ≤ l.line.toInt → 1 ≤ l.column.toInt → 0 ≤ l.offset.toInt - 1 →
    l.offset.toInt - 1 ≤ document.length →
    document.positionAt (l.offset.toInt - 1).toNat =
      .ok ⟨(l.line.toInt - 1).toNat, (l.column.toInt - 1).toNat⟩

/-- Where the document knows the offset of an event that is stated truly, it has the position
that the parser states. -/
theorem Event.StatesTruly.positionAt_eq {document : Document} {e : Event} {l : Location}
    {offset : Nat} {p : Position} (h : e.StatesTruly document) (hlocation : e.location = some l)
    (hoffset : l.errorOffset? = some offset) (hle : offset ≤ document.length)
    (hstated : l.position? = some p) : document.positionAt offset = .ok p := by
  rw [Location.errorOffset?_eq_some_iff] at hoffset
  rw [Location.position?_eq_some_iff] at hstated
  have htruth := h l hlocation (by omega) (by omega) (by omega) (by omega)
  rw [← hoffset, ← hstated.1, ← hstated.2] at htruth
  exact htruth

namespace Reporter

variable {r r' : Reporter} {e : Event}

/-- For an event that is stated truly, the line index and the parser agree on the position,
so it does not matter which of them comes first. -/
theorem pointOf?_eq_of_statesTruly (hdocument : r.document = r'.document)
    (htrust : r.settings.validatePositions = false)
    (hvalidate : r'.settings.validatePositions = true) (h : e.StatesTruly r'.document)
    {l : Event.Location} (hlocation : e.location = some l) {offset : Nat}
    (hoffset : l.errorOffset? = some offset) : r.pointOf? l offset = r'.pointOf? l offset := by
  rw [r.pointOf?_of_trusts htrust, r'.pointOf?_of_validates hvalidate, hdocument]
  cases hstated : l.position? with
  | none => rfl
  | some p =>
    by_cases hle : offset ≤ r'.document.length
    · rw [h.positionAt_eq hlocation hoffset hle hstated]
    · rw [Document.positionAt_of_length_lt (Nat.lt_of_not_le hle)]

/-- An event that is stated truly has the same range whether positions are validated or
not. -/
theorem rangeOf?_eq_of_statesTruly (hdocument : r.document = r'.document)
    (hfamily : r.family = r'.family) (htrust : r.settings.validatePositions = false)
    (hvalidate : r'.settings.validatePositions = true) (h : e.StatesTruly r'.document) :
    r.rangeOf? e = r'.rangeOf? e := by
  unfold rangeOf?
  cases hlocation : e.location with
  | none => rw [hdocument]
  | some l =>
    cases hoffset : l.errorOffset? with
    | none => simp only [hoffset, hdocument, hfamily, Option.bind_none]
    | some offset =>
      simp only [hoffset, hdocument, hfamily, Option.bind_some,
        pointOf?_eq_of_statesTruly hdocument htrust hvalidate h hlocation hoffset]

end Reporter

namespace Pass

/-- **Trusted positions are as good as validated ones if the parser is right.**  If the parser
states line and column of all events truly, it makes no difference to a pass whether positions
are validated: the diagnostics are the same, in the same order, and so is the error that stops
the pass.  Nothing is asked about events whose line or column the parser does not know, or
whose offset is not one of the document. -/
theorem run_trusting_eq_run_validating (settings : Settings) (document : Document)
    (events : List Event) (h : ∀ e ∈ events, e.StatesTruly document) :
    run { settings with reporter.validatePositions := false } document events =
      run { settings with reporter.validatePositions := true } document events := by
  have halike : List.Forall₂
      (Reporter.Alike Eq
        (reporter { settings with reporter.validatePositions := false } document)
        (reporter { settings with reporter.validatePositions := true } document))
      events events := by
    refine List.forall₂_same.mpr fun e he ↦ ⟨?_, rfl, rfl⟩
    exact congrArg (Option.map _)
      (Reporter.rangeOf?_eq_of_statesTruly rfl rfl rfl rfl (h e he))
  exact (reportAll_lockstep halike .empty).eq

/-- An event with its true position, one whose line is not known, and a fatal one far behind
the document. -/
theorem run_trusting_eq_run_validating_behind_end :
    let document : Document := .ofString "<a>\n<b>"
    let events : List Event :=
      [⟨"urn:x", "E", [], .error, some ⟨6, 2, 2⟩, none⟩,
        ⟨"urn:x", "F", [], .error, some ⟨4, -1, 9⟩, none⟩,
        ⟨"urn:x", "G", [], .fatal, some ⟨99, 7, 3⟩, none⟩]
    let trusting : Pass := run { reporter.validatePositions := false } document events
    (∀ e ∈ events, e.StatesTruly document) ∧
      trusting = run { reporter.validatePositions := true } document events ∧
      trusting.log.entries.map (·.range.start) = [⟨1, 1⟩, ⟨0, 3⟩, ⟨6, 2⟩] ∧
      trusting.isAborted = true := by
  intro document events trusting
  have htruly : ∀ e ∈ events, e.StatesTruly document := by
    intro e he l hlocation hline hcolumn hbegin hend
    simp only [events, List.mem_cons, List.not_mem_nil, or_false] at he
    rcases he with rfl | rfl | rfl
    · cases hlocation
      decide +kernel
    · cases hlocation
      exact absurd hline (by decide)
    · cases hlocation
      exact absurd hend (by decide +kernel)
  exact ⟨htruly, run_trusting_eq_run_validating {} document events htruly, by decide +kernel,
    by decide +kernel⟩

end Pass

/-! ## Positions without influence -/

/-- Two events are the same, but for the line and the column that the parser states for an
offset that is not behind the document. -/
inductive Event.Restated (document : Document) : Event → Event → Prop where
  /-- The events are the same. -/
  | same (e : Event) : Restated document e e
  /-- The second event has another line and another column. -/
  | restated (e : Event) (l : Location) (line column : Int32) (location : e.location = some l)
      (inside : l.offset.toInt - 1 ≤ document.length) :
      Restated document e { e with location := some { l with line := line, column := column } }

/-- Two errors that stop the parser are the same, but for the place where the parser was. -/
structure Abort.EqButLocation (a a' : Abort) : Prop where
  /-- The messages are the same. -/
  message_eq : a.message = a'.message
  /-- The keys are the same. -/
  key_eq : a.key = a'.key
  /-- The messages of the failures behind them are the same. -/
  cause_eq : a.cause = a'.cause

section Families

variable {l l' : Event.Location}

theorem Event.Location.errorOffset?_congr (h : l.offset = l'.offset) :
    l.errorOffset? = l'.errorOffset? := by
  rw [errorOffset?, errorOffset?, h]

/-- What an error of validity is about depends on the offset alone. -/
theorem Validity.span?_congr (h : l.offset = l'.offset) (text : List Char)
    (arguments : List Argument) (error : Validity) :
    error.span? text l arguments = error.span? text l' arguments := by
  cases error <;> simp only [span?, Event.Location.errorOffset?_congr h]

/-- What a family knows about an error depends on the offset alone. -/
theorem Family.resolve?_congr (h : l.offset = l'.offset) (family : Family) (document : Document)
    (key : String) (arguments : List Argument) :
    family.resolve? document l key arguments = family.resolve? document l' key arguments := by
  unfold resolve?
  cases family with
  | xml => simp only [span?, Event.Location.errorOffset?_congr h]
  | schema => simp only [span?, Validity.span?_congr h]
  | unknown => rfl

end Families

namespace Reporter

variable {r : Reporter} {e e' : Event}

/-- Where positions are validated, an offset that is not behind the document has the position
that the line index says, whatever the parser states. -/
theorem pointOf?_congr (hlength : r.document.length < Position.bound)
    (hvalidate : r.settings.validatePositions = true) {l l' : Event.Location}
    (hsame : l.offset = l'.offset) (hinside : l.offset.toInt - 1 ≤ r.document.length) :
    l.errorOffset?.bind (r.pointOf? l) = l'.errorOffset?.bind (r.pointOf? l') := by
  rw [← Event.Location.errorOffset?_congr hsame]
  refine Option.bind_congr fun offset hoffset ↦ ?_
  rw [Event.Location.errorOffset?_eq_some_iff] at hoffset
  have hle : offset ≤ r.document.length := by omega
  obtain ⟨p, hp⟩ := (Document.exists_positionAt_iff hlength).mpr hle
  rw [r.pointOf?_of_validates hvalidate, r.pointOf?_of_validates hvalidate, hp]

/-- Stating line and column otherwise does not change the range of an event. -/
theorem rangeOf?_of_restated (family : Family) (hfamily : r.family = family)
    (hlength : r.document.length < Position.bound)
    (hvalidate : r.settings.validatePositions = true) (h : e.Restated r.document e') :
    r.rangeOf? e = r.rangeOf? e' := by
  cases h with
  | same => rfl
  | restated l line column location inside =>
    have hsame : l.offset =
      ({ l with line := line, column := column } : Event.Location).offset := rfl
    have hknown := Family.resolve?_congr hsame family r.document e.key e.arguments
    have hpoint := pointOf?_congr hlength hvalidate hsame inside
    simp only [rangeOf?, location, hfamily, Family.rules_resolve?, hknown, hpoint]

/-- A reporter that validates positions treats an event as before if line and column are
stated otherwise, but for the place that it says the parser was at. -/
theorem alike_of_restated (family : Family) (hfamily : r.family = family)
    (hlength : r.document.length < Position.bound)
    (hvalidate : r.settings.validatePositions = true) (h : e.Restated r.document e') :
    Alike Abort.EqButLocation r r e e' := by
  have hrange := rangeOf?_of_restated family hfamily hlength hvalidate h
  cases h with
  | same => exact ⟨rfl, rfl, ⟨rfl, rfl, rfl⟩⟩
  | restated l line column location inside =>
    refine ⟨?_, rfl, ⟨rfl, rfl, rfl⟩⟩
    rw [diagnosticOf?, diagnosticOf?, hrange]
    rfl

end Reporter

namespace Pass

/-- **Stated positions have no influence where positions are validated.**  Take two lists of
events that are the same, but for the line and the column that the parser states for offsets
that are not behind the document.  Both passes record the same diagnostics in the same order.
Either both finish, or both are stopped by the event with the same index, and by the same
error but for the place where it says the parser was. -/
theorem run_of_restated (settings : Settings) (document : Document) (events events' : List Event)
    (hlength : document.length < Position.bound)
    (hvalidate : settings.reporter.validatePositions = true)
    (h : List.Forall₂ (Event.Restated document) events events') :
    let p := run settings document events
    let p' := run settings document events'
    p.log = p'.log ∧
      (p.abort = none ∧ p'.abort = none ∨
        ∃ k a a', (∀ j, StopsAt settings document events j ↔ j = k) ∧
          (∀ j, StopsAt settings document events' j ↔ j = k) ∧
          p.abort = some a ∧ p'.abort = some a' ∧ a.EqButLocation a') := by
  intro p p'
  have halike : List.Forall₂ (Reporter.Alike Abort.EqButLocation (reporter settings document)
      (reporter settings document)) events events' :=
    h.imp fun _ _ hrestated ↦
      Reporter.alike_of_restated settings.family rfl hlength hvalidate hrestated
  have hpasses : Alike Abort.EqButLocation p p' := reportAll_lockstep halike .empty
  refine ⟨hpasses.log_eq, ?_⟩
  rcases hpasses.abort_cases with hfinished | ⟨a, a', ha, ha', hsame⟩
  · exact Or.inl hfinished
  · obtain ⟨k, hk⟩ := exists_stopsAt_iff_eq (ha ▸ Option.some_ne_none a)
    refine Or.inr ⟨k, a, a', hk, fun j ↦ ?_, ha, ha', hsame⟩
    rw [← hk, stopsAt_iff, stopsAt_iff, halike.length_eq, findIdx_halts_lockstep halike]

/-- Lines and columns that are nowhere in the document do not keep a pass from stopping at its
second event, with an error that only repeats them. -/
theorem run_of_restated_fatal :
    let document : Document := .ofString "<a>"
    let first : Event := ⟨"urn:x", "E", [], .error, some ⟨2, 1, 2⟩, none⟩
    let second : Event := ⟨"urn:x", "ETagRequired", [.str "a"], .fatal, some ⟨4, 1, 4⟩, none⟩
    let third : Event := ⟨"urn:x", "F", [], .error, some ⟨99, 1, 1⟩, none⟩
    let events := [first, second, third]
    let events' := [{ first with location := some ⟨2, 77, 0⟩ },
      { second with location := some ⟨4, -5, 900⟩ }, third]
    let p := run {} document events
    let p' := run {} document events'
    document.length < Position.bound ∧
      List.Forall₂ (Event.Restated document) events events' ∧
      p.log.size = 2 ∧ p.log = p'.log ∧
      StopsAt {} document events 1 ∧ StopsAt {} document events' 1 ∧
      ∃ a a', p.abort = some a ∧ p'.abort = some a' ∧ a.EqButLocation a' ∧
        a.location ≠ a'.location := by
  intro document first second third events events' p p'
  have hrestated : List.Forall₂ (Event.Restated document) events events' :=
    .cons (.restated first ⟨2, 1, 2⟩ 77 0 rfl (by decide +kernel))
      (.cons (.restated second ⟨4, 1, 4⟩ (-5) 900 rfl (by decide +kernel))
        (.cons (.same third) .nil))
  have hstops : StopsAt {} document events 1 :=
    stopsAt_iff.mpr ⟨by decide, by decide +kernel⟩
  have habort : p.abort.map (·.location) = some (some ⟨4, 1, 4⟩) := by decide +kernel
  have habort' : p'.abort.map (·.location) = some (some ⟨4, -5, 900⟩) := by decide +kernel
  have hlength : document.length < Position.bound := by decide +kernel
  obtain ⟨hlog, hcases⟩ :=
    run_of_restated {} document events events' hlength rfl hrestated
  refine ⟨hlength, hrestated, by decide +kernel, hlog, hstops, ?_⟩
  rcases hcases with ⟨hfinished, -⟩ | ⟨k, a, a', hk, hk', ha, ha', hsame⟩
  · exact absurd hfinished (by decide +kernel)
  · obtain rfl : 1 = k := (hk 1).mp hstops
    refine ⟨(hk' 1).mpr rfl, a, a', ha, ha', hsame, ?_⟩
    rw [ha, Option.map_some, Option.some.injEq] at habort
    rw [ha', Option.map_some, Option.some.injEq] at habort'
    rw [habort, habort']
    decide

end Pass

end XmlDiagnostics
