import Mathlib.Data.Set.Basic
import Mathlib.Order.Bounds.Defs
import XmlDiagnostics.Proofs.LineIndex

/-!
# Offsets and positions in order

Positions are in the strict order of their offsets, so `Document.positionAt` loses nothing.
`Document.offsetAt` goes back also from positions that no offset has: it gives the first
offset that is not before the position (`isLeast_offsetAt`), and so it keeps the order too.
This holds for every line of the document.  Only behind the end of the last line there is no
such offset, and the end of the document takes its place.
-/

namespace XmlDiagnostics

/-! ## The order of positions -/

namespace Position

variable {p q r : Position}

protected theorem le_trans (h : p ≤ q) (h' : q ≤ r) : p ≤ r := by
  rw [le_def] at h h' ⊢
  omega

protected theorem lt_of_le_of_ne (h : p ≤ q) (hne : p ≠ q) : p < q := by
  rw [le_def] at h
  rw [ne_eq, Position.ext_iff] at hne
  rw [lt_def]
  omega

end Position

namespace Document

variable {d : Document} {p q : Position} {o o' line start : Nat} {later : List Nat}

/-! ## Positions keep the order of offsets -/

/-- Positions are in the strict order of their offsets. -/
theorem positionAt_lt_positionAt (hlength : d.length < Position.bound)
    (hp : d.positionAt o = .ok p) (hq : d.positionAt o' = .ok q) (hlt : o < o') : p < q := by
  refine Position.lt_of_le_of_ne
    (positionAt_le_positionAt hlength hp hq (Nat.le_of_lt hlt)) ?_
  rintro rfl
  have hsame := offsetAt_of_positionAt hlength hp
  rw [offsetAt_of_positionAt hlength hq, Except.ok.injEq] at hsame
  exact Nat.ne_of_gt hlt hsame

/-! ## Lines and the places on them -/

theorem exists_drop_lineStarts_eq (h : line < d.lineCount) :
    ∃ start later, d.lineStarts.drop line = start :: later :=
  ⟨_, _, List.drop_eq_getElem_cons h⟩

theorem headD_le_of_mem_later (h : d.lineStarts.drop line = start :: later) {s : Nat}
    (hs : s ∈ later) : later.headD d.length ≤ s := by
  cases later with
  | nil => cases hs
  | cons next others =>
    rcases List.mem_cons.mp hs with rfl | hs
    · exact Nat.le_refl _
    · exact Nat.le_of_lt (start_lt_of_mem_later (drop_succ_lineStarts h) s hs)

theorem positionAt_start (hlength : d.length < Position.bound)
    (h : d.lineStarts.drop line = start :: later) : d.positionAt start = .ok ⟨line, 0⟩ := by
  have hmem : start ∈ d.lineStarts.drop line := by
    rw [h]
    exact List.mem_cons_self
  have honLine : d.OnLine start line start later :=
    ⟨h, Nat.le_refl start, start_lt_of_mem_later h⟩
  rw [honLine.positionAt_eq (d.le_length_of_mem_lineStarts (List.mem_of_mem_drop hmem)) hlength,
    Nat.sub_self]

/-! ## The first offset that is not before a position -/

/-- The offsets of a document whose position is a given one or behind it. -/
def offsetsFrom (d : Document) (p : Position) : Set Nat :=
  {o | o ≤ d.length ∧ ∃ q, d.positionAt o = .ok q ∧ p ≤ q}

/-- An offset is not before a position just if it has enough characters from the beginning
of the line on, or is behind the beginning of a later line. -/
theorem mem_offsetsFrom_iff (hlength : d.length < Position.bound)
    (h : d.lineStarts.drop p.line = start :: later) :
    o ∈ d.offsetsFrom p ↔
      o ≤ d.length ∧ (start + p.character ≤ o ∨ ∃ next ∈ later, next ≤ o) := by
  refine and_congr_right fun hle ↦ ?_
  obtain ⟨line', start', later', honLine⟩ := d.exists_onLine o
  have hstart := honLine.start_le
  rw [honLine.positionAt_eq hle hlength]
  simp only [Except.ok.injEq, exists_eq_left', Position.le_def]
  -- The offset is on a later line, on the line of the position, or on an earlier one.
  rcases Nat.lt_trichotomy p.line line' with hlt | rfl | hgt
  · have hmem := mem_later_of_lt h honLine.drop_eq hlt
    exact iff_of_true (Or.inl hlt) (Or.inr ⟨start', hmem, hstart⟩)
  · obtain ⟨rfl, rfl⟩ := List.cons.inj (h.symm.trans honLine.drop_eq)
    have hnone : ¬ ∃ next ∈ later, next ≤ o := by
      rintro ⟨next, hnext, hle⟩
      exact Nat.not_le.mpr (honLine.lt_later next hnext) hle
    simp only [hnone, or_false, Nat.lt_irrefl, true_and, false_or]
    omega
  · have hbefore := honLine.lt_later start (mem_later_of_lt honLine.drop_eq h hgt)
    refine iff_of_false (by omega) ?_
    rintro (hle | ⟨next, hnext, hle⟩)
    · omega
    · have := start_lt_of_mem_later h next hnext
      omega

/-- The offset of a position is the first offset that is not before it.  If there is none, it
is the end of the document. -/
theorem isLeast_offsetAt (hlength : d.length < Position.bound) (hp : d.offsetAt p = .ok o) :
    IsLeast (d.offsetsFrom p) o ∨ (d.offsetsFrom p = ∅ ∧ o = d.length) := by
  obtain ⟨start, later, h⟩ := exists_drop_lineStarts_eq (exists_offsetAt_iff.mp ⟨o, hp⟩)
  have hle := offsetAt_le_length hp
  rw [offsetAt_of_drop_eq h, Except.ok.injEq] at hp
  have hlower : o ∈ lowerBounds (d.offsetsFrom p) := by
    intro o' ho'
    rcases ((mem_offsetsFrom_iff hlength h).mp ho').2 with hle' | ⟨next, hnext, hle'⟩
    · omega
    · have := headD_le_of_mem_later h hnext
      omega
  by_cases hline : start + p.character ≤ later.headD d.length
  · exact Or.inl ⟨(mem_offsetsFrom_iff hlength h).mpr ⟨hle, Or.inl (by omega)⟩, hlower⟩
  · cases later with
    | nil =>
      rw [List.headD_nil] at hp hline
      refine Or.inr ⟨Set.eq_empty_of_forall_notMem fun o' ho' ↦ ?_, by omega⟩
      rcases (mem_offsetsFrom_iff hlength h).mp ho' with ⟨hle', hle'' | ⟨next, hnext, -⟩⟩
      · omega
      · cases hnext
    | cons next others =>
      rw [List.headD_cons] at hp hline
      have hnext : next ≤ o := by omega
      exact Or.inl ⟨(mem_offsetsFrom_iff hlength h).mpr
        ⟨hle, Or.inr ⟨next, List.mem_cons_self, hnext⟩⟩, hlower⟩

/-- Later positions have later offsets, on all lines of the document. -/
theorem offsetAt_le_offsetAt (hlength : d.length < Position.bound) (hpq : p ≤ q)
    (hp : d.offsetAt p = .ok o) (hq : d.offsetAt q = .ok o') : o ≤ o' := by
  rcases isLeast_offsetAt hlength hq with ⟨⟨hle, r, hr, hqr⟩, -⟩ | ⟨-, rfl⟩
  · have hmem : o' ∈ d.offsetsFrom p := ⟨hle, r, hr, Position.le_trans hpq hqr⟩
    rcases isLeast_offsetAt hlength hp with ⟨-, hlower⟩ | ⟨hempty, -⟩
    · exact hlower hmem
    · rw [hempty] at hmem
      exact absurd hmem (Set.notMem_empty o')
  · exact offsetAt_le_length hp

/-- On a line that is not the last one, a character past the end means the beginning of the
next line. -/
theorem exists_offsetAt_eq_min (hlength : d.length < Position.bound)
    (hline : p.line + 1 < d.lineCount) :
    ∃ start next, d.positionAt start = .ok ⟨p.line, 0⟩ ∧
      d.positionAt next = .ok ⟨p.line + 1, 0⟩ ∧
      d.offsetAt p = .ok (min (start + p.character) next) := by
  obtain ⟨start, later, h⟩ := exists_drop_lineStarts_eq (Nat.lt_of_succ_lt hline)
  obtain ⟨next, others, hnext⟩ := exists_drop_lineStarts_eq hline
  obtain rfl := (drop_succ_lineStarts h).symm.trans hnext
  exact ⟨start, next, positionAt_start hlength h, positionAt_start hlength hnext,
    offsetAt_of_drop_eq h⟩

/-- Behind the last line there are no offsets. -/
theorem offsetAt_of_lineCount_le (h : d.lineCount ≤ p.line) :
    d.offsetAt p = .error (.lineOutOfRange p.line d.lineCount) := by
  rw [offsetAt, List.drop_eq_nil_of_le h]

/-! ## Both directions together -/

/-- **Offsets and positions are adjoint.**  Positions are in the strict order of their offsets.
On a line of the document, a position has an offset: the first one that is not before the
position, or the end of the document if there is none.  So the offset of the position of an
offset is that offset, later positions have later offsets, and a character past the end of
its line means the beginning of the next line.  Behind the last line there is no offset. -/
theorem offsetAt_adjoint_positionAt (d : Document) (hlength : d.length < Position.bound) :
    (∀ o o', o < o' → o' ≤ d.length →
        ∃ p q, d.positionAt o = .ok p ∧ d.positionAt o' = .ok q ∧ p < q) ∧
      (∀ p, p.line < d.lineCount → ∃ o, d.offsetAt p = .ok o ∧
        (IsLeast (d.offsetsFrom p) o ∨ (d.offsetsFrom p = ∅ ∧ o = d.length))) ∧
      (∀ o ≤ d.length, ∃ p, d.positionAt o = .ok p ∧ d.offsetAt p = .ok o) ∧
      (∀ p q, p ≤ q → q.line < d.lineCount →
        ∃ o o', d.offsetAt p = .ok o ∧ d.offsetAt q = .ok o' ∧ o ≤ o') ∧
      (∀ p, p.line + 1 < d.lineCount →
        ∃ start next, d.positionAt start = .ok ⟨p.line, 0⟩ ∧
          d.positionAt next = .ok ⟨p.line + 1, 0⟩ ∧
          d.offsetAt p = .ok (min (start + p.character) next)) ∧
      ∀ p, d.lineCount ≤ p.line →
        d.offsetAt p = .error (.lineOutOfRange p.line d.lineCount) := by
  refine ⟨?_, ?_, ?_, ?_, fun p hline ↦ exists_offsetAt_eq_min hlength hline,
    fun p hline ↦ offsetAt_of_lineCount_le hline⟩
  · intro o o' hlt hle
    have hle' : o ≤ d.length := Nat.le_of_lt (Nat.lt_of_lt_of_le hlt hle)
    obtain ⟨p, hp⟩ := (exists_positionAt_iff hlength).mpr hle'
    obtain ⟨q, hq⟩ := (exists_positionAt_iff hlength).mpr hle
    exact ⟨p, q, hp, hq, positionAt_lt_positionAt hlength hp hq hlt⟩
  · intro p hline
    obtain ⟨o, ho⟩ := exists_offsetAt_iff.mpr hline
    exact ⟨o, ho, isLeast_offsetAt hlength ho⟩
  · intro o hle
    obtain ⟨p, hp⟩ := (exists_positionAt_iff hlength).mpr hle
    exact ⟨p, hp, offsetAt_of_positionAt hlength hp⟩
  · intro p q hpq hline
    have hpline : p.line < d.lineCount := by
      rw [Position.le_def] at hpq
      omega
    obtain ⟨o, ho⟩ := exists_offsetAt_iff.mpr hpline
    obtain ⟨o', ho'⟩ := exists_offsetAt_iff.mpr hline
    exact ⟨o, o', ho, ho', offsetAt_le_offsetAt hlength hpq ho ho'⟩

/-- Far behind the end of the first line, the first offset that is not before the position is
the beginning of the empty second one.  Far behind the end of the last line there is none. -/
theorem offsetAt_adjoint_past_line_ends :
    let d : Document := .ofString "ab\r\n\ncd"
    d.length < Position.bound ∧
      d.offsetAt ⟨0, 9⟩ = .ok 4 ∧ IsLeast (d.offsetsFrom ⟨0, 9⟩) 4 ∧
      d.offsetAt ⟨2, 9⟩ = .ok 7 ∧ d.offsetsFrom ⟨2, 9⟩ = ∅ ∧
      d.offsetAt ⟨3, 0⟩ = .error (.lineOutOfRange 3 3) := by
  intro d
  have hlength : d.length < Position.bound := by decide +kernel
  have hclamped : d.offsetAt ⟨0, 9⟩ = .ok 4 := by decide +kernel
  have hend : d.offsetAt ⟨2, 9⟩ = .ok 7 := by decide +kernel
  obtain ⟨-, hleast, -, -, -, hbehind⟩ := offsetAt_adjoint_positionAt d hlength
  refine ⟨hlength, hclamped, ?_, hend, ?_, hbehind ⟨3, 0⟩ (by decide +kernel)⟩
  · obtain ⟨o, ho, h⟩ := hleast ⟨0, 9⟩ (by decide +kernel)
    obtain rfl : 4 = o := Except.ok.inj (hclamped.symm.trans ho)
    rcases h with h | ⟨-, hlast⟩
    · exact h
    · exact absurd hlast (by decide +kernel)
  · obtain ⟨o, ho, h⟩ := hleast ⟨2, 9⟩ (by decide +kernel)
    obtain rfl : 7 = o := Except.ok.inj (hend.symm.trans ho)
    rcases h with ⟨⟨-, q, hq, hle⟩, -⟩ | ⟨hempty, -⟩
    · have hlast : d.positionAt 7 = .ok ⟨2, 2⟩ := by decide +kernel
      obtain rfl : ⟨2, 2⟩ = q := Except.ok.inj (hlast.symm.trans hq)
      exact absurd hle (by decide)
    · exact hempty

end Document

end XmlDiagnostics
