import XmlDiagnostics.Proofs.Labels
import XmlDiagnostics.Proofs.OffsetOrder

/-!
# The text under a label

A label counts bytes, and bytes only mean something in the UTF-8 of the whole text.  Here the
labels of diagnostics are compared with that.  A label never cuts a character (`Label.Fits`),
and the label of a range from the position of one offset to that of another has under it the
bytes of the characters between these offsets, and no others
(`Diagnostic.label?_of_positionAt`, `utf8Decode?_bytes_of_between`).

What carries this is one equation on the way from characters to bytes: the bytes of a text cut
after some of its characters are the bytes of the two parts (`extract_utf8Encode`).
-/

namespace XmlDiagnostics

/-! ## Texts in UTF-8 -/

namespace Document

/-- The text of a document. -/
def text (d : Document) : String :=
  String.ofList d.chars

/-- The characters of a document from one offset up to another. -/
def between (d : Document) (start stop : Nat) : List Char :=
  (d.chars.take stop).drop start

theorem size_utf8Encode (text : List Char) : text.utf8Encode.size = byteLength text := by
  induction text with
  | nil => rfl
  | cons c rest ih =>
    rw [List.utf8Encode_cons, ByteArray.size_append, ih, List.utf8Encode_singleton,
      List.size_toByteArray, String.length_utf8EncodeChar, byteLength]

theorem byteLength_eq_utf8ByteSize (text : List Char) :
    byteLength text = (String.ofList text).utf8ByteSize := by
  rw [← String.size_toByteArray, String.toByteArray_ofList, size_utf8Encode]

/-- The bytes behind those of the first part of a text, as many as the second part has, are the
bytes of the second part. -/
theorem extract_utf8Encode (before middle after : List Char) :
    (before ++ (middle ++ after)).utf8Encode.extract (byteLength before)
      (byteLength before + byteLength middle) = middle.utf8Encode := by
  rw [List.utf8Encode_append, List.utf8Encode_append, ← size_utf8Encode, ← size_utf8Encode]
  conv => lhs; arg 2; rw [← Nat.add_zero before.utf8Encode.size]
  rw [ByteArray.extract_append_size_add, ByteArray.extract_append_eq_left rfl]

variable (d : Document) {start stop : Nat}

theorem take_append_between (h : start ≤ stop) :
    d.chars.take start ++ d.between start stop = d.chars.take stop := by
  have htake : (d.chars.take stop).take start = d.chars.take start := by
    rw [List.take_take, Nat.min_eq_left h]
  rw [between, ← htake, List.take_append_drop]

theorem byteLength_take_add_between (h : start ≤ stop) :
    byteLength (d.chars.take start) + byteLength (d.between start stop) =
      byteLength (d.chars.take stop) := by
  rw [← byteLength_append, d.take_append_between h]

/-- Between any two characters of a text there is a boundary. -/
theorem isValid_byteLength_take (offset : Nat) :
    String.Pos.Raw.IsValid d.text ⟨byteLength (d.chars.take offset)⟩ :=
  String.Pos.Raw.isValid_ofList.mpr ⟨offset, byteLength_eq_utf8ByteSize _⟩

end Document

/-! ## Labels in UTF-8 -/

namespace Report.Label

/-- The bytes of a document under a label. -/
def bytes (document : Document) (l : Label) : ByteArray :=
  document.text.toByteArray.extract l.offset (l.offset + l.length)

/-- A label fits a range of a document. -/
structure Fits (document : Document) (range : Range) (l : Label) : Prop where
  /-- The label does not go past the last byte of the text. -/
  inText : l.offset + l.length ≤ document.text.utf8ByteSize
  /-- The label begins between characters. -/
  start_isValid : String.Pos.Raw.IsValid document.text ⟨l.offset⟩
  /-- The label ends between characters. -/
  stop_isValid : String.Pos.Raw.IsValid document.text ⟨l.offset + l.length⟩
  /-- The label begins at the byte of the start of the range, and ends at the byte of its end,
  or of its start if that is later: no more bytes are taken away than there are. -/
  ends : ∃ start stop, document.offsetAt range.start = .ok start ∧
    document.offsetAt range.stop = .ok stop ∧
    document.byteOffset? start = some l.offset ∧
    document.byteOffset? (max start stop) = some (l.offset + l.length)
  /-- The label of a range that does not run forward is empty. -/
  length_of_reversed : range.stop ≤ range.start → l.length = 0

/-- A label with the bytes of some characters of the text, at their place, decodes to these
characters. -/
theorem utf8Decode?_bytes_of_between (document : Document) {start stop : Nat}
    (h : start ≤ stop) {l : Label}
    (hoffset : l.offset = Document.byteLength (document.chars.take start))
    (hbytes : l.length = Document.byteLength (document.between start stop)) :
    (l.bytes document).utf8Decode? = some (document.between start stop).toArray := by
  have hchars : document.chars = document.chars.take start ++
      (document.between start stop ++ document.chars.drop stop) := by
    rw [← List.append_assoc, document.take_append_between h, List.take_append_drop]
  rw [bytes, Document.text, String.toByteArray_ofList, hoffset, hbytes]
  conv => lhs; arg 1; arg 1; rw [hchars]
  rw [Document.extract_utf8Encode, List.utf8Decode?_utf8Encode]

end Report.Label

namespace Diagnostic

variable {document : Document} {d : Diagnostic}

/-- The label of a diagnostic fits its range. -/
theorem fits_of_label?_eq_some (hlength : document.length < Position.bound) {l : Report.Label}
    (h : d.label? document = some l) : l.Fits document d.range := by
  have hinText := isIn_of_label?_eq_some h
  obtain ⟨start, stop, hstart, hstop, hlow, hhigh⟩ := ends_of_label?_eq_some h
  have hstart_le := Document.offsetAt_le_length hstart
  have hmax_le := Nat.max_le.mpr ⟨hstart_le, Document.offsetAt_le_length hstop⟩
  constructor
  · rw [Document.text, ← Document.byteLength_eq_utf8ByteSize]
    exact hinText
  · rw [hlow]
    exact document.isValid_byteLength_take start
  · rw [hhigh]
    exact document.isValid_byteLength_take (max start stop)
  · refine ⟨start, stop, hstart, hstop, ?_, ?_⟩
    · rw [hlow]
      exact Document.byteOffset?_of_le_length hstart_le
    · rw [hhigh]
      exact Document.byteOffset?_of_le_length hmax_le
  · intro hreversed
    have hle := Document.offsetAt_le_offsetAt hlength hreversed hstop hstart
    rw [Nat.max_eq_left hle, ← hlow] at hhigh
    exact Nat.add_eq_left.mp hhigh

/-- The label of a range between the positions of two offsets has the bytes before the first
one before it, and the bytes of the characters between them under it. -/
theorem label?_of_positionAt (hlength : document.length < Position.bound) {start stop : Nat}
    (hle : start ≤ stop) (hstart : document.positionAt start = .ok d.range.start)
    (hstop : document.positionAt stop = .ok d.range.stop) :
    d.label? document = some {
      offset := Document.byteLength (document.chars.take start)
      length := Document.byteLength (document.between start stop) } := by
  rw [label?_of_offsetAt (Document.offsetAt_of_positionAt hlength hstart)
    (Document.offsetAt_of_positionAt hlength hstop), Nat.max_eq_right hle,
    ← document.byteLength_take_add_between hle, Nat.add_sub_cancel_left]

/-- **Labels select the characters of the range.**  A diagnostic lacks a label just if an end of
its range is on no line of the document.  Otherwise its one label fits the range, which may be
reversed or go past the ends of lines.  If the range runs from the position of one offset to
that of another, the label stands behind the bytes of the characters before the first, has as
many bytes as the characters between the two, and decodes to them.  The reports of a log are
those of its entries, one by one. -/
theorem label_selects_range (document : Document) (hlength : document.length < Position.bound) :
    (∀ d : Diagnostic, (d.report document).label = none ↔
        document.lineCount ≤ d.range.start.line ∨ document.lineCount ≤ d.range.stop.line) ∧
      (∀ (d : Diagnostic) (l : Report.Label), (d.report document).label = some l →
        l.Fits document d.range) ∧
      (∀ start stop, start ≤ stop → stop ≤ document.length →
        ∃ p q, document.positionAt start = .ok p ∧ document.positionAt stop = .ok q ∧
          ∀ d : Diagnostic, d.range = ⟨p, q⟩ →
            ∃ l, (d.report document).label = some l ∧
              l.offset = (String.ofList (document.chars.take start)).utf8ByteSize ∧
              l.length = (String.ofList (document.between start stop)).utf8ByteSize ∧
              (l.bytes document).utf8Decode? = some (document.between start stop).toArray) ∧
      ∀ (log : Log) (i : Nat),
        (log.reports document)[i]? = log.entries[i]?.map (report document) := by
  refine ⟨fun d ↦ label?_eq_none_iff, fun d l h ↦ fits_of_label?_eq_some hlength h, ?_,
    fun log i ↦ List.getElem?_map⟩
  intro start stop hle hstop_le
  obtain ⟨p, hp⟩ := (Document.exists_positionAt_iff hlength).mpr (Nat.le_trans hle hstop_le)
  obtain ⟨q, hq⟩ := (Document.exists_positionAt_iff hlength).mpr hstop_le
  refine ⟨p, q, hp, hq, ?_⟩
  intro d hrange
  have hlabel : (d.report document).label = some _ :=
    label?_of_positionAt hlength hle (by rw [hrange]; exact hp) (by rw [hrange]; exact hq)
  exact ⟨_, hlabel, Document.byteLength_eq_utf8ByteSize _, Document.byteLength_eq_utf8ByteSize _,
    Report.Label.utf8Decode?_bytes_of_between document hle rfl rfl⟩

/-- A character of four bytes behind one of two bytes, and a reversed range over both. -/
theorem label_selects_wide_character :
    let document : Document := .ofString "é𝄞\r\nz"
    let wide : Diagnostic := ⟨⟨⟨0, 1⟩, ⟨0, 2⟩⟩, "E", .error, "xml", "E"⟩
    let reversed : Diagnostic := { wide with range := ⟨⟨0, 2⟩, ⟨0, 0⟩⟩ }
    document.length < Position.bound ∧
      (wide.report document).label = some ⟨2, 4⟩ ∧
      ((⟨2, 4⟩ : Report.Label).bytes document).utf8Decode? = some #['𝄞'] ∧
      (reversed.report document).label = some ⟨6, 0⟩ ∧
      (⟨6, 0⟩ : Report.Label).Fits document reversed.range := by
  intro document wide reversed
  have hlength : document.length < Position.bound := by decide +kernel
  have hwide : (wide.report document).label = some ⟨2, 4⟩ := by decide +kernel
  have hreversed : (reversed.report document).label = some ⟨6, 0⟩ := by decide +kernel
  obtain ⟨-, hfits, hselects, -⟩ := label_selects_range document hlength
  obtain ⟨p, q, hp, hq, hrange⟩ := hselects 1 2 (by decide) (by decide +kernel)
  have hp' : document.positionAt 1 = .ok ⟨0, 1⟩ := by decide +kernel
  have hq' : document.positionAt 2 = .ok ⟨0, 2⟩ := by decide +kernel
  cases hp.symm.trans hp'
  cases hq.symm.trans hq'
  obtain ⟨l, hl, -, -, hdecode⟩ := hrange wide rfl
  cases hl.symm.trans hwide
  exact ⟨hlength, hwide, hdecode, hreversed, hfits _ _ hreversed⟩

end Diagnostic

end XmlDiagnostics
