import XmlDiagnostics.Proofs.LineIndex
import XmlDiagnostics.Report

/-!
# Labels are in the document

The range of a diagnostic counts lines and characters, and its label counts bytes.  On the
way from one to the other both ends become offsets, and an offset of the document becomes
the number of bytes before it, which grows with the offset.  So a label is missing just if
an end of the range is on no line (`label?_eq_none_iff`), and a label that is there lies in
the text (`isIn_of_label?_eq_some`).
-/

namespace XmlDiagnostics

/-! ## Bytes before an offset -/

namespace Document

theorem byteLength_append (before after : List Char) :
    byteLength (before ++ after) = byteLength before + byteLength after := by
  induction before with
  | nil => rw [List.nil_append, byteLength, Nat.zero_add]
  | cons c before ih => rw [List.cons_append, byteLength, byteLength, ih, Nat.add_assoc]

theorem byteLength_le_of_prefix {before text : List Char} (h : before <+: text) :
    byteLength before ≤ byteLength text := by
  obtain ⟨after, rfl⟩ := h
  rw [byteLength_append]
  exact Nat.le_add_right _ _

theorem byteLength_take_le (text : List Char) (n : Nat) :
    byteLength (text.take n) ≤ byteLength text :=
  byteLength_le_of_prefix (List.take_prefix n text)

theorem byteLength_take_le_byteLength_take (text : List Char) {m n : Nat} (h : m ≤ n) :
    byteLength (text.take m) ≤ byteLength (text.take n) :=
  byteLength_le_of_prefix (List.take_prefix_take_left h)

/-- An offset of the document has the bytes of the text before it. -/
theorem byteOffset?_of_le_length {d : Document} {offset : Nat} (h : offset ≤ d.length) :
    d.byteOffset? offset = some (byteLength (d.chars.take offset)) :=
  if_pos h

end Document

/-- A label lies in the text of a document: it does not go past the last byte. -/
def Report.Label.IsIn (document : Document) (l : Report.Label) : Prop :=
  l.offset + l.length ≤ Document.byteLength document.chars

/-! ## The label of a diagnostic -/

namespace Diagnostic

variable {document : Document} {d : Diagnostic}

/-- The label of a range whose ends have offsets covers what is between them.  If the range
is reversed it is empty and stands at the start. -/
theorem label?_of_offsetAt {start stop : Nat}
    (hstart : document.offsetAt d.range.start = .ok start)
    (hstop : document.offsetAt d.range.stop = .ok stop) :
    d.label? document = some {
      offset := Document.byteLength (document.chars.take start)
      length := Document.byteLength (document.chars.take (max start stop)) -
        Document.byteLength (document.chars.take start) } := by
  have hstart_le := Document.offsetAt_le_length hstart
  have hmax_le := Nat.max_le.mpr ⟨hstart_le, Document.offsetAt_le_length hstop⟩
  simp only [label?, hstart, hstop, Document.byteOffset?_of_le_length hstart_le,
    Document.byteOffset?_of_le_length hmax_le]
  rfl

theorem exists_label?_iff :
    (∃ l, d.label? document = some l) ↔
      d.range.start.line < document.lineCount ∧ d.range.stop.line < document.lineCount := by
  rw [← Document.exists_offsetAt_iff, ← Document.exists_offsetAt_iff]
  constructor
  · rintro ⟨l, hl⟩
    unfold label? at hl
    split at hl
    · rename_i start stop hstart hstop
      exact ⟨⟨start, hstart⟩, stop, hstop⟩
    · cases hl
  · rintro ⟨⟨start, hstart⟩, stop, hstop⟩
    exact ⟨_, label?_of_offsetAt hstart hstop⟩

/-- A label is missing just if an end of the range is on no line of the document. -/
theorem label?_eq_none_iff :
    d.label? document = none ↔
      document.lineCount ≤ d.range.start.line ∨ document.lineCount ≤ d.range.stop.line := by
  rw [← Nat.not_lt, ← Nat.not_lt, ← not_and_or, ← exists_label?_iff, not_exists,
    Option.eq_none_iff_forall_ne_some]

/-- A label begins at the byte of the start of the range, and ends at the byte of its end, or
of its start if that is later. -/
theorem ends_of_label?_eq_some {l : Report.Label} (h : d.label? document = some l) :
    ∃ start stop, document.offsetAt d.range.start = .ok start ∧
      document.offsetAt d.range.stop = .ok stop ∧
      l.offset = Document.byteLength (document.chars.take start) ∧
      l.offset + l.length = Document.byteLength (document.chars.take (max start stop)) := by
  obtain ⟨hstart_lt, hstop_lt⟩ := exists_label?_iff.mp ⟨l, h⟩
  obtain ⟨start, hstart⟩ := Document.exists_offsetAt_iff.mpr hstart_lt
  obtain ⟨stop, hstop⟩ := Document.exists_offsetAt_iff.mpr hstop_lt
  rw [label?_of_offsetAt hstart hstop] at h
  cases h
  exact ⟨start, stop, hstart, hstop, rfl, Nat.add_sub_cancel'
    (Document.byteLength_take_le_byteLength_take document.chars (Nat.le_max_left start stop))⟩

theorem isIn_of_label?_eq_some {l : Report.Label} (h : d.label? document = some l) :
    l.IsIn document := by
  obtain ⟨start, stop, -, -, -, hend⟩ := ends_of_label?_eq_some h
  rw [Report.Label.IsIn, hend]
  exact Document.byteLength_take_le document.chars (max start stop)

end Diagnostic

end XmlDiagnostics
