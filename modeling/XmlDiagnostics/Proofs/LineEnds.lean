import Mathlib.Data.Finset.Card
import Mathlib.Data.Finset.Lattice.Fold
import Mathlib.Data.Finset.Prod
import Mathlib.Data.Finset.Range
import Mathlib.Order.Lattice.Nat
import Mathlib.Tactic.MkIffOfInductiveProp
import XmlDiagnostics.Proofs.LineIndex

/-!
# Lines are counted by their ends

The line index is built in one walk over the text, which looks ahead to keep a carriage
return and its line feed together.  Here the ends of lines are described without a walk:
`IsLineEnd` looks at one place of the text and at its two neighbours.

The index then holds zero and the offsets where line ends stop, and nothing else
(`mem_lineStarts_iff`).  So the line of an offset is the number of line ends up to it, and
its character is what is left from the last of them.
-/

namespace XmlDiagnostics.Document

/-! ## What ends a line -/

/-- The characters of a text from `start` up to another offset end a line. -/
@[mk_iff]
inductive IsLineEnd (text : List Char) (start : Nat) : Nat → Prop where
  /-- A carriage return and a line feed end a line together. -/
  | pair (at_start : text[start]? = some '\r') (feed : text[start + 1]? = some '\n') :
      IsLineEnd text start (start + 2)
  /-- A carriage return ends a line by itself if no line feed follows. -/
  | loneReturn (at_start : text[start]? = some '\r') (no_feed : text[start + 1]? ≠ some '\n') :
      IsLineEnd text start (start + 1)
  /-- A line feed ends a line by itself if it follows no carriage return. -/
  | loneFeed (at_start : text[start]? = some '\n')
      (no_return : start = 0 ∨ text[start - 1]? ≠ some '\r') :
      IsLineEnd text start (start + 1)

instance (text : List Char) (start stop : Nat) : Decidable (IsLineEnd text start stop) :=
  decidable_of_iff _ (isLineEnd_iff text start stop).symm

namespace IsLineEnd

variable {text : List Char} {start stop : Nat}

theorem start_lt (h : IsLineEnd text start stop) : start < stop := by
  cases h <;> omega

/-- Line ends that stop at the same offset are the same: a line feed is never both the end
of a pair and a line end by itself. -/
theorem start_unique {start' : Nat} (h : IsLineEnd text start stop)
    (h' : IsLineEnd text start' stop) : start = start' := by
  rw [isLineEnd_iff] at h h'
  -- A pair and a lone end that stop together share a character: it would have to be both
  -- characters at once, or the lone line feed would follow a carriage return.
  grind

end IsLineEnd

/-- A line ends behind the character with index `k`.  What stands before a line feed does not
matter, since it ends a line in any case. -/
def EndsBehind (text : List Char) (k : Nat) : Prop :=
  text[k]? = some '\n' ∨ (text[k]? = some '\r' ∧ text[k + 1]? ≠ some '\n')

/-- A line ends behind a character just if the character is the last one of a line end. -/
theorem exists_isLineEnd_iff {text : List Char} {k : Nat} :
    (∃ start, IsLineEnd text start (k + 1)) ↔ EndsBehind text k := by
  constructor
  · rintro ⟨start, h⟩
    rcases (isLineEnd_iff text start (k + 1)).mp h with
      ⟨-, feed, hstop⟩ | ⟨at_start, no_feed, hstop⟩ | ⟨at_start, -, hstop⟩
    · obtain rfl : k = start + 1 := Nat.succ.inj hstop
      exact Or.inl feed
    · obtain rfl : k = start := Nat.succ.inj hstop
      exact Or.inr ⟨at_start, no_feed⟩
    · obtain rfl : k = start := Nat.succ.inj hstop
      exact Or.inl at_start
  · rintro (feed | ⟨at_start, no_feed⟩)
    · by_cases hpair : k = 0 ∨ text[k - 1]? ≠ some '\r'
      · exact ⟨k, .loneFeed feed hpair⟩
      · push Not at hpair
        obtain ⟨j, rfl⟩ := Nat.exists_eq_succ_of_ne_zero hpair.1
        exact ⟨j, .pair hpair.2 feed⟩
    · exact ⟨k, .loneReturn at_start no_feed⟩

/-! ## The index holds the line ends -/

section Walk

variable {c : Char} {text : List Char} {k : Nat}

@[simp] theorem endsBehind_cons_succ : EndsBehind (c :: text) (k + 1) ↔ EndsBehind text k := by
  simp [EndsBehind]

@[simp] theorem endsBehind_cons_zero :
    EndsBehind (c :: text) 0 ↔ c = '\n' ∨ (c = '\r' ∧ text.head? ≠ some '\n') := by
  simp [EndsBehind, List.head?_eq_getElem?]

/-- The lines of a text end behind its first character or in what is left. -/
theorem exists_endsBehind_cons_iff {p : Nat → Prop} :
    (∃ k, p k ∧ EndsBehind (c :: text) k) ↔
      (p 0 ∧ EndsBehind (c :: text) 0) ∨ ∃ k, p (k + 1) ∧ EndsBehind text k := by
  rw [← Nat.or_exists_add_one]
  simp only [endsBehind_cons_succ]

/-- The walk over a text finds the offsets behind which a line ends. -/
theorem mem_lineStartsFrom_iff {offset s : Nat} :
    s ∈ lineStartsFrom offset text ↔ ∃ k, s = offset + (k + 1) ∧ EndsBehind text k := by
  fun_induction lineStartsFrom offset text with
  | case1 => simp [EndsBehind]
  | case2 offset rest ih =>
    -- The walk takes both characters of a pair, and no line ends between them.
    rw [exists_endsBehind_cons_iff, exists_endsBehind_cons_iff, List.mem_cons, ih]
    simp [Nat.add_assoc, Nat.add_left_comm]
  | case3 offset rest hno ih =>
    have hhead : rest.head? ≠ some '\n' := by
      rintro h
      obtain ⟨rest', rfl⟩ := List.head?_eq_some_iff.mp h
      exact hno rest' rfl
    rw [exists_endsBehind_cons_iff, List.mem_cons, ih]
    simp [hhead, Nat.add_assoc, Nat.add_left_comm]
  | case4 offset rest ih =>
    rw [exists_endsBehind_cons_iff, List.mem_cons, ih]
    simp [Nat.add_assoc, Nat.add_left_comm]
  | case5 offset c rest hpair hreturn hfeed ih =>
    have hno : ¬ EndsBehind (c :: rest) 0 := by
      rw [endsBehind_cons_zero]
      rintro (rfl | ⟨rfl, -⟩)
      · exact hfeed rfl
      · exact hreturn rfl
    rw [exists_endsBehind_cons_iff, ih]
    simp only [hno, and_false, false_or, Nat.add_assoc, Nat.add_left_comm 1]

end Walk

variable (d : Document)

/-- The lines of a document begin at zero and where a line end stops. -/
theorem mem_lineStarts_iff {s : Nat} :
    s ∈ d.lineStarts ↔ s = 0 ∨ ∃ start, IsLineEnd d.chars start s := by
  rw [lineStarts, List.mem_cons, mem_lineStartsFrom_iff]
  refine or_congr_right ?_
  constructor
  · rintro ⟨k, rfl, hends⟩
    rw [Nat.zero_add]
    exact exists_isLineEnd_iff.mpr hends
  · rintro ⟨start, hends⟩
    obtain ⟨k, rfl⟩ := Nat.exists_eq_succ_of_ne_zero (Nat.ne_zero_of_lt hends.start_lt)
    exact ⟨k, (Nat.zero_add _).symm, exists_isLineEnd_iff.mp ⟨start, hends⟩⟩

/-! ## Line ends up to an offset -/

/-- The line ends of a document that stop at an offset or before it, each with the offsets
where it starts and stops. -/
def lineEndsUpTo (offset : Nat) : Finset (Nat × Nat) :=
  (Finset.range offset ×ˢ Finset.range (offset + 1)).filter fun e ↦ IsLineEnd d.chars e.1 e.2

variable {d} {offset : Nat}

@[simp] theorem mem_lineEndsUpTo {e : Nat × Nat} :
    e ∈ d.lineEndsUpTo offset ↔ IsLineEnd d.chars e.1 e.2 ∧ e.2 ≤ offset := by
  rw [lineEndsUpTo, Finset.mem_filter, Finset.mem_product, Finset.mem_range, Finset.mem_range]
  constructor
  · rintro ⟨⟨-, hstop⟩, hends⟩
    exact ⟨hends, Nat.le_of_lt_succ hstop⟩
  · rintro ⟨hends, hstop⟩
    exact ⟨⟨Nat.lt_of_lt_of_le hends.start_lt hstop, Nat.lt_succ_of_le hstop⟩, hends⟩

/-! ## Where the index is cut -/

/-- An index cuts the list of line starts at an offset: the lines before the index begin at
the offset or before it, and the lines from there on behind it. -/
structure Cuts (d : Document) (offset k : Nat) : Prop where
  /-- The index is in the list or just behind it. -/
  le_lineCount : k ≤ d.lineCount
  /-- The lines before the index begin at the offset or before it. -/
  le_of_mem_take : ∀ s ∈ d.lineStarts.take k, s ≤ offset
  /-- The lines from the index on begin behind the offset. -/
  lt_of_mem_drop : ∀ s ∈ d.lineStarts.drop k, offset < s

namespace Cuts

variable {k : Nat}

theorem mem_take_iff (h : d.Cuts offset k) {s : Nat} :
    s ∈ d.lineStarts.take k ↔ s ∈ d.lineStarts ∧ s ≤ offset := by
  constructor
  · intro hs
    exact ⟨List.mem_of_mem_take hs, h.le_of_mem_take s hs⟩
  · rintro ⟨hs, hle⟩
    rw [← List.take_append_drop k d.lineStarts, List.mem_append] at hs
    rcases hs with hs | hs
    · exact hs
    · exact absurd hle (Nat.not_le.mpr (h.lt_of_mem_drop s hs))

/-- The lines before a cut are the first line and one for each line end up to the offset. -/
theorem toFinset_take (h : d.Cuts offset k) :
    (d.lineStarts.take k).toFinset = insert 0 ((d.lineEndsUpTo offset).image Prod.snd) := by
  ext s
  rw [List.mem_toFinset, h.mem_take_iff, mem_lineStarts_iff, Finset.mem_insert,
    Finset.mem_image]
  constructor
  · rintro ⟨rfl | ⟨start, hends⟩, hle⟩
    · exact Or.inl rfl
    · exact Or.inr ⟨(start, s), mem_lineEndsUpTo.mpr ⟨hends, hle⟩, rfl⟩
  · rintro (rfl | ⟨⟨start, stop⟩, he, rfl⟩)
    · exact ⟨Or.inl rfl, Nat.zero_le offset⟩
    · obtain ⟨hends, hle⟩ := mem_lineEndsUpTo.mp he
      exact ⟨Or.inr ⟨start, hends⟩, hle⟩

/-- There is one line more before a cut than there are line ends up to the offset. -/
theorem eq_card_add_one (h : d.Cuts offset k) : k = (d.lineEndsUpTo offset).card + 1 := by
  have hinj : Set.InjOn Prod.snd (d.lineEndsUpTo offset : Set (Nat × Nat)) := by
    intro e he e' he' heq
    obtain ⟨hends, -⟩ := mem_lineEndsUpTo.mp he
    obtain ⟨hends', -⟩ := mem_lineEndsUpTo.mp he'
    rw [← heq] at hends'
    exact Prod.ext (hends.start_unique hends') heq
  have hzero : 0 ∉ (d.lineEndsUpTo offset).image Prod.snd := by
    rw [Finset.mem_image]
    rintro ⟨e, he, hstop⟩
    exact Nat.not_lt_zero _ (hstop ▸ (mem_lineEndsUpTo.mp he).1.start_lt)
  have hnodup : (d.lineStarts.take k).Nodup :=
    (d.pairwise_lineStarts.imp Nat.ne_of_lt).sublist (List.take_sublist k _)
  calc k = (d.lineStarts.take k).length := by
        rw [List.length_take]
        exact (Nat.min_eq_left h.le_lineCount).symm
    _ = (d.lineStarts.take k).toFinset.card := (List.toFinset_card_of_nodup hnodup).symm
    _ = (d.lineEndsUpTo offset).card + 1 := by
        rw [h.toFinset_take, Finset.card_insert_of_notMem hzero, Finset.card_image_of_injOn hinj]

end Cuts

namespace OnLine

variable {line start : Nat} {later : List Nat}

theorem take_succ (h : d.OnLine offset line start later) :
    d.lineStarts.take (line + 1) = d.lineStarts.take line ++ [start] := by
  rw [List.take_add, h.drop_eq]
  rfl

/-- The index is cut behind the line of the offset. -/
theorem cuts (h : d.OnLine offset line start later) : d.Cuts offset (line + 1) where
  le_lineCount := h.line_lt
  le_of_mem_take := by
    intro s hs
    rw [h.take_succ, ← h.takeWhile_eq] at hs
    simpa using List.mem_takeWhile_imp hs
  lt_of_mem_drop := by
    intro s hs
    rw [drop_succ_lineStarts h.drop_eq] at hs
    exact h.lt_later s hs

/-- The line of an offset is the number of line ends up to it. -/
theorem card_lineEndsUpTo (h : d.OnLine offset line start later) :
    (d.lineEndsUpTo offset).card = line :=
  (Nat.succ.inj h.cuts.eq_card_add_one).symm

/-- The line of an offset begins where the last line end up to it stops. -/
theorem sup_lineEndsUpTo (h : d.OnLine offset line start later) :
    (d.lineEndsUpTo offset).sup Prod.snd = start := by
  have hmem {s : Nat} : s ∈ d.lineStarts.take line ++ [start] ↔
      s ∈ insert 0 ((d.lineEndsUpTo offset).image Prod.snd) := by
    rw [← h.cuts.toFinset_take, h.take_succ, List.mem_toFinset]
  apply Nat.le_antisymm
  · -- The line starts increase, so the last one before the cut is the largest.
    have hpairwise := d.pairwise_lineStarts.take (i := line + 1)
    rw [h.take_succ, List.pairwise_append] at hpairwise
    refine Finset.sup_le fun e he ↦ ?_
    have hstop := hmem.mpr (Finset.mem_insert_of_mem (Finset.mem_image_of_mem Prod.snd he))
    rcases List.mem_append.mp hstop with hbefore | hlast
    · exact Nat.le_of_lt (hpairwise.2.2 _ hbefore start (List.mem_singleton_self start))
    · exact Nat.le_of_eq (List.mem_singleton.mp hlast)
  · have hstart := hmem.mp (List.mem_append_right _ (List.mem_singleton_self start))
    rcases Finset.mem_insert.mp hstart with rfl | hstart
    · exact Nat.zero_le _
    · obtain ⟨e, he, rfl⟩ := Finset.mem_image.mp hstart
      exact Finset.le_sup (f := Prod.snd) he

end OnLine

/-- The search for the line of an offset cuts the index. -/
theorem cuts_takeWhile (d : Document) (offset : Nat) :
    d.Cuts offset (d.lineStarts.takeWhile (· ≤ offset)).length := by
  obtain ⟨line, start, later, h⟩ := d.exists_onLine offset
  have hcuts := h.cuts
  rw [h.takeWhile_eq, List.length_append, h.length_take, List.length_singleton]
  exact hcuts

theorem cuts_length (d : Document) : d.Cuts d.length d.lineCount where
  le_lineCount := Nat.le_refl _
  le_of_mem_take _ hs := d.le_length_of_mem_lineStarts (List.mem_of_mem_take hs)
  lt_of_mem_drop := by
    intro s hs
    rw [lineCount, List.drop_length] at hs
    cases hs

/-! ## Positions, counted -/

/-- The position of an offset counts the line ends up to it, and the characters from the
last of them on. -/
theorem positionAt_eq_of_le_length (hlength : d.length < Position.bound)
    (hoffset : offset ≤ d.length) :
    d.positionAt offset =
      .ok ⟨(d.lineEndsUpTo offset).card, offset - (d.lineEndsUpTo offset).sup Prod.snd⟩ := by
  obtain ⟨line, start, later, h⟩ := d.exists_onLine offset
  rw [h.card_lineEndsUpTo, h.sup_lineEndsUpTo]
  exact h.positionAt_eq hoffset hlength

/-- No line ends between a carriage return and its line feed. -/
theorem lineEndsUpTo_succ_of_pair {i : Nat} (hreturn : d.chars[i]? = some '\r')
    (hfeed : d.chars[i + 1]? = some '\n') : d.lineEndsUpTo (i + 1) = d.lineEndsUpTo i := by
  have hno : ¬ EndsBehind d.chars i := by
    rw [EndsBehind, hreturn, hfeed]
    decide
  ext e
  rw [mem_lineEndsUpTo, mem_lineEndsUpTo]
  refine and_congr_right fun hends ↦ ?_
  have hne : e.2 ≠ i + 1 := by
    intro heq
    rw [heq] at hends
    exact hno (exists_isLineEnd_iff.mp ⟨e.1, hends⟩)
  omega

/-- **Positions count line ends.**  The line of an offset is the number of line ends up to
it, and its character is what is left from the last one of them, or from zero.  So a place
between a carriage return and its line feed is still on the line of both.  An offset behind
the end has no position.  There is one line more than there are line ends, and wherever the
index is cut in two at an offset, the first part has one line more than there are line ends
up to the offset: it is never empty, and the last line in it is the line of the offset. -/
theorem positionAt_counts_lineEnds (d : Document) (hlength : d.length < Position.bound) :
    (∀ offset ≤ d.length, d.positionAt offset =
        .ok ⟨(d.lineEndsUpTo offset).card, offset - (d.lineEndsUpTo offset).sup Prod.snd⟩) ∧
      (∀ i p, d.chars[i]? = some '\r' → d.chars[i + 1]? = some '\n' → d.positionAt i = .ok p →
        d.positionAt (i + 1) = .ok ⟨p.line, p.character + 1⟩) ∧
      (∀ offset, d.length < offset →
        d.positionAt offset = .error (.offsetOutOfRange offset d.length)) ∧
      d.lineCount = (d.lineEndsUpTo d.length).card + 1 ∧
      ∀ offset, d.Cuts offset (d.lineStarts.takeWhile (· ≤ offset)).length ∧
        ∀ k, d.Cuts offset k → k = (d.lineEndsUpTo offset).card + 1 := by
  have hposition : ∀ offset ≤ d.length, d.positionAt offset =
      .ok ⟨(d.lineEndsUpTo offset).card, offset - (d.lineEndsUpTo offset).sup Prod.snd⟩ :=
    fun _ hoffset ↦ positionAt_eq_of_le_length hlength hoffset
  refine ⟨hposition, ?_, fun _ hoffset ↦ positionAt_of_length_lt hoffset,
    d.cuts_length.eq_card_add_one,
    fun offset ↦ ⟨d.cuts_takeWhile offset, fun _ hcuts ↦ hcuts.eq_card_add_one⟩⟩
  intro i p hreturn hfeed hp
  have hi : i + 1 < d.length := (List.getElem?_eq_some_iff.mp hfeed).1
  have hsup : (d.lineEndsUpTo i).sup Prod.snd ≤ i :=
    Finset.sup_le fun e he ↦ (mem_lineEndsUpTo.mp he).2
  rw [hposition i (by omega), Except.ok.injEq] at hp
  rw [hposition (i + 1) (by omega), lineEndsUpTo_succ_of_pair hreturn hfeed, ← hp,
    Nat.sub_add_comm hsup]

/-- A pair, a lone carriage return, and a pair right behind it: the place inside the second
pair is still on the empty line between them. -/
theorem positionAt_counts_mixed_lineEnds :
    let d : Document := .ofString "a\r\nb\r\r\nc"
    d.length < Position.bound ∧ d.lineEndsUpTo d.length = {(1, 3), (4, 5), (5, 7)} ∧
      d.positionAt 6 = .ok ⟨2, 1⟩ ∧ d.positionAt 9 = .error (.offsetOutOfRange 9 8) ∧
      d.lineCount = 4 := by
  intro d
  have hlength : d.length < Position.bound := by decide +kernel
  have hall : d.lineEndsUpTo d.length = {(1, 3), (4, 5), (5, 7)} := by decide +kernel
  have hsix : d.lineEndsUpTo 6 = {(1, 3), (4, 5)} := by decide +kernel
  obtain ⟨hposition, -, hbehind, hcount, -⟩ := positionAt_counts_lineEnds d hlength
  refine ⟨hlength, hall, ?_, hbehind 9 (by decide +kernel), ?_⟩
  · rw [hposition 6 (by decide +kernel), hsix]
    rfl
  · rw [hcount, hall]
    rfl

end XmlDiagnostics.Document
