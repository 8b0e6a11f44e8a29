import XmlDiagnostics.Proofs.FamilySpans
import XmlDiagnostics.Proofs.Labels
import XmlDiagnostics.Proofs.PassOutcome
import XmlDiagnostics.Proofs.Placement
import XmlDiagnostics.Proofs.SessionLog

/-!
# Diagnostics are anchored in the document

Where positions are validated, a diagnostic points into its document unless its event is
behind the end of the document.  A range can come from four places: the beginning of the
document, the family, the line index, and the parser's own line and column.  `Origin` tells
them apart; only the last one gives ranges that may be outside the document, and only where
the index has no answer.

A run changes nothing about this.  Every entry of its log is the diagnostic of one of the
events, so what holds for each event by itself holds for the whole log, also where several
events left the same entry.
-/

namespace XmlDiagnostics

/-! ## Diagnostics that point into the document -/

/-- A diagnostic is anchored if its range is a range of the document, and its report has a
label in the text. -/
structure Diagnostic.Anchored (document : Document) (d : Diagnostic) : Prop where
  /-- The range is in the document. -/
  range : d.range.IsIn document
  /-- The report has a label, and the label is in the text. -/
  label : ∃ l, (d.report document).label = some l ∧ l.IsIn document

/-- A diagnostic with a range of the document is anchored. -/
theorem Diagnostic.anchored_of_isIn {document : Document} {d : Diagnostic}
    (h : d.range.IsIn document) : d.Anchored document := by
  obtain ⟨start, -, hstart, -⟩ := h.start
  obtain ⟨stop, -, hstop, -⟩ := h.stop
  have hlabel := Diagnostic.label?_of_offsetAt hstart hstop
  exact ⟨h, _, hlabel, Diagnostic.isIn_of_label?_eq_some hlabel⟩

theorem Diagnostic.Anchored.label_ne_none {document : Document} {d : Diagnostic}
    (h : d.Anchored document) : (d.report document).label ≠ none := by
  obtain ⟨l, hl, -⟩ := h.label
  rw [hl]
  exact Option.some_ne_none l

namespace Reporter

variable {r : Reporter} {e : Event}

/-! ## Where ranges come from -/

/-- Where the range of an event comes from if positions are validated. -/
inductive Origin (r : Reporter) (e : Event) : Range → Prop where
  /-- The event has no location: it belongs to the beginning of the document. -/
  | beginning (p : Position) (location : e.location = none)
      (at_p : r.document.positionAt 0 = .ok p) : Origin r e (.collapsed p)
  /-- The family knows the range. -/
  | family (l : Event.Location) (range : Range) (location : e.location = some l)
      (known : r.family.resolve? r.document l e.key e.arguments = some range) :
      Origin r e range
  /-- The line index knows the offset. -/
  | index (l : Event.Location) (offset : Nat) (p : Position) (location : e.location = some l)
      (counted : (offset : Int) = l.offset.toInt - 1)
      (at_p : r.document.positionAt offset = .ok p) :
      Origin r e (.collapsed p)
  /-- The parser states line and column of an offset behind the document. -/
  | stated (l : Event.Location) (p : Position) (location : e.location = some l)
      (unknown : r.family.resolve? r.document l e.key e.arguments = none)
      (behind : (r.document.length : Int) < l.offset.toInt - 1) (stated : l.position? = some p) :
      Origin r e (.collapsed p)

/-- Every range has an origin. -/
theorem origin_of_rangeOf? (hlength : r.document.length < Position.bound)
    (hvalidate : r.settings.validatePositions = true) {range : Range}
    (h : r.rangeOf? e = some range) : Origin r e range := by
  unfold rangeOf? at h
  split at h
  · rename_i hlocation
    split at h
    · rename_i p hp
      cases h
      exact .beginning p hlocation hp
    · cases h
  · rename_i l hlocation
    rcases Option.or_eq_some_iff.mp h with hknown | ⟨hunknown, hpoint⟩
    · exact .family l range hlocation hknown
    · obtain ⟨p, hp, rfl⟩ := Option.map_eq_some_iff.mp hpoint
      obtain ⟨offset, hoffset, hp⟩ := Option.bind_eq_some_iff.mp hp
      have hcounted := Event.Location.errorOffset?_eq_some_iff.mp hoffset
      rw [r.pointOf?_of_validates hvalidate] at hp
      split at hp
      · rename_i p' hindex
        cases hp
        exact .index l offset p hlocation hcounted hindex
      · rename_i reason hindex
        -- The index answers for every offset up to the end of the document.
        have hbehind : r.document.length < offset := by
          rw [← Nat.not_le, ← Document.exists_positionAt_iff hlength]
          rintro ⟨p', hp'⟩
          rw [hindex] at hp'
          cases hp'
        exact .stated l p hlocation hunknown (by omega) hp

/-! ## What an event promises -/

/-- What a diagnostic owes to the place of its event. -/
structure Anchors (r : Reporter) (e : Event) (d : Diagnostic) : Prop where
  /-- The diagnostic is anchored if its event has no location, or one in the document. -/
  anchored : (∀ l, e.location = some l → l.offset.toInt - 1 ≤ r.document.length) →
    d.Anchored r.document
  /-- The diagnostic lacks a label just if its event is behind the document, the family does
  not know its range, and the line that the parser states is no line of the document. -/
  unlabelled_iff : (d.report r.document).label = none ↔
    ∃ l, e.location = some l ∧ (r.document.length : Int) < l.offset.toInt - 1 ∧
      r.family.resolve? r.document l e.key e.arguments = none ∧
      (r.document.lineCount : Int) ≤ l.line.toInt - 1

/-- An anchored diagnostic owes nothing more, if its event is one that the document or the
family knows. -/
theorem Anchors.of_anchored {d : Diagnostic} (hd : d.Anchored r.document)
    (h : ∀ l, e.location = some l → (r.document.length : Int) < l.offset.toInt - 1 →
      r.family.resolve? r.document l e.key e.arguments ≠ none) : Anchors r e d where
  anchored _ := hd
  unlabelled_iff := by
    constructor
    · intro hnone
      exact absurd hnone hd.label_ne_none
    · rintro ⟨l, hlocation, hbehind, hunknown, -⟩
      exact absurd hunknown (h l hlocation hbehind)

/-- A diagnostic at the position that the parser states has a label just if that line is a
line of the document. -/
theorem label_eq_none_iff_of_collapsed {d : Diagnostic} {l : Event.Location} {p : Position}
    (hrange : d.range = .collapsed p) (hstated : l.position? = some p) :
    (d.report r.document).label = none ↔ (r.document.lineCount : Int) ≤ l.line.toInt - 1 := by
  have hline := (Event.Location.position?_eq_some_iff.mp hstated).1
  show d.label? r.document = none ↔ _
  rw [Diagnostic.label?_eq_none_iff, hrange]
  simp only [Range.collapsed, or_self]
  omega

/-- Every event keeps its promise if positions are validated and the family finds nothing
outside the document. -/
theorem anchors_of_diagnosticOf? (hlength : r.document.length < Position.bound)
    (hvalidate : r.settings.validatePositions = true)
    (hfamily : ∀ l key arguments range,
      r.family.resolve? r.document l key arguments = some range → range.IsIn r.document)
    {d : Diagnostic} (h : r.diagnosticOf? e = some d) : Anchors r e d := by
  obtain ⟨range, hrange, rfl⟩ := Option.map_eq_some_iff.mp h
  cases origin_of_rangeOf? hlength hvalidate hrange with
  | beginning p hlocation hp =>
    refine .of_anchored (Diagnostic.anchored_of_isIn ?_) ?_
    · exact Range.isIn_of_positionAt hlength (Nat.le_refl 0) hp hp
    · intro l hl
      rw [hlocation] at hl
      cases hl
  | family l range hlocation hknown =>
    refine .of_anchored (Diagnostic.anchored_of_isIn (hfamily _ _ _ _ hknown)) ?_
    intro l' hl' _
    rw [hlocation] at hl'
    cases hl'
    rw [hknown]
    exact Option.some_ne_none range
  | index l offset p hlocation hcounted hp =>
    refine .of_anchored (Diagnostic.anchored_of_isIn ?_) ?_
    · exact Range.isIn_of_positionAt hlength (Nat.le_refl offset) hp hp
    · intro l' hl' hbehind
      rw [hlocation] at hl'
      cases hl'
      have hle := ((Document.positionAt_eq_ok_iff hlength).mp hp).1
      omega
  | stated l p hlocation hunknown hbehind hstated =>
    constructor
    · intro hinside
      have := hinside l hlocation
      omega
    · rw [label_eq_none_iff_of_collapsed rfl hstated]
      constructor
      · intro hline
        exact ⟨l, hlocation, hbehind, hunknown, hline⟩
      · rintro ⟨l', hl', -, -, hline⟩
        rw [hlocation] at hl'
        cases hl'
        exact hline

/-! ## Whole runs -/

/-- Every entry of a log was left by one of the events, and every event that left an entry
keeps its promise. -/
def AnchorsAll (r : Reporter) (events : List Event) (log : Diagnostic.Log) : Prop :=
  ∀ d ∈ log.entries, (∃ e ∈ events, r.diagnosticOf? e = some d) ∧
    ∀ e ∈ events, r.diagnosticOf? e = some d → Anchors r e d

/-- A log that holds nothing but diagnostics of the events keeps the promises of all of
them. -/
theorem anchorsAll_of_forall_mem (family : Family) (hr : r.family = family)
    (hlength : r.document.length < Position.bound)
    (hvalidate : r.settings.validatePositions = true) {events : List Event}
    {log : Diagnostic.Log} (h : ∀ d ∈ log.entries, ∃ e ∈ events, r.diagnosticOf? e = some d) :
    r.AnchorsAll events log := by
  intro d hd
  refine ⟨h d hd, fun e _ he ↦ anchors_of_diagnosticOf? hlength hvalidate ?_ he⟩
  intro l key arguments range hknown
  rw [hr] at hknown
  exact Family.isIn_of_resolve? hlength hknown

/-- **Diagnostics are anchored where positions are validated.**  Take a document of less
than `Position.bound` characters, a family, and settings that validate positions.  Every
entry of the log of a run, be it a pass or a session that goes on after fatal errors, is the
diagnostic of one of the events, and is anchored as well as `Anchors` says of every event
that leaves it. -/
theorem anchorsAll_run (family : Family) (document : Document) (formatters : Message.Registry)
    (settings : ReporterSettings) (events : List Event)
    (hlength : document.length < Position.bound)
    (hvalidate : settings.validatePositions = true) :
    let r : Reporter := ⟨document, family, formatters, settings⟩
    r.AnchorsAll events ((Session.start r).run (events.map .report)).1.log ∧
      (Pass.reporter ⟨settings, family⟩ document).AnchorsAll events
        (Pass.run ⟨settings, family⟩ document events).log := by
  intro r
  constructor
  · refine anchorsAll_of_forall_mem family rfl hlength hvalidate fun d hd ↦ ?_
    rw [Session.log_run_map_report, Diagnostic.Log.mem_entries_recordAll] at hd
    rcases hd with hd | hd
    · cases hd
    · exact List.mem_filterMap.mp hd
  · refine anchorsAll_of_forall_mem family rfl hlength hvalidate fun d hd ↦ ?_
    exact Pass.exists_of_mem_entries_run _ _ hd

/-- One event without a location, one that the family knows, and one behind the end at a
line that does not exist: only the last lacks a label. -/
theorem anchorsAll_run_of_unclosed :
    let document : Document := .ofString "<a>"
    let events : List Event :=
      [⟨"urn:x", "E", [], .error, none, none⟩,
        ⟨"urn:x", "ETagRequired", [.str "a"], .error, some ⟨4, 1, 4⟩, none⟩,
        ⟨"urn:x", "F", [], .error, some ⟨9, 7, 2⟩, none⟩]
    let r : Reporter := ⟨document, Family.xml, .builtin, {}⟩
    let session := (Session.start r).run (events.map .report)
    document.length < Position.bound ∧
      session.1.log.entries.map (fun d ↦ (d.report document).label) =
        [some ⟨0, 0⟩, some ⟨1, 1⟩, none] ∧
      r.AnchorsAll events session.1.log := by
  intro document events r session
  have hlength : document.length < Position.bound := by decide +kernel
  exact ⟨hlength, by decide +kernel,
    (anchorsAll_run .xml document .builtin {} events hlength rfl).1⟩

end Reporter

end XmlDiagnostics
