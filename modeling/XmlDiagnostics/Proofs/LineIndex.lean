import Mathlib.Data.List.TakeWhile
import Mathlib.Order.Basic
import XmlDiagnostics.Document

/-!
# The line index

`Document.positionAt` and `Document.offsetAt` both read the list of line starts.  That list
is strictly increasing and begins with zero, so every offset is on exactly one line:
`OnLine` names that line, where it begins, and where the later ones begin.  The two
functions are then described by `OnLine` alone, and the lemmas about them do not look at
the list again.

Positions are words of 32 bits, so documents of at least `Position.bound` characters have
offsets without a position.  The lemmas that need it ask for shorter documents.
-/

namespace XmlDiagnostics

namespace Document

/-! ## The list of line starts -/

/-- Every line but the first begins behind a character of the text. -/
theorem bounds_of_mem_lineStartsFrom {offset s : Nat} {text : List Char}
    (h : s ∈ lineStartsFrom offset text) : offset < s ∧ s ≤ offset + text.length := by
  fun_induction lineStartsFrom offset text with
  | case1 => simp at h
  | case2 offset rest ih =>
    rw [List.length_cons, List.length_cons]
    rcases List.mem_cons.mp h with rfl | h
    · omega
    · have := ih h
      omega
  | case3 offset rest _ ih =>
    rw [List.length_cons]
    rcases List.mem_cons.mp h with rfl | h
    · omega
    · have := ih h
      omega
  | case4 offset rest ih =>
    rw [List.length_cons]
    rcases List.mem_cons.mp h with rfl | h
    · omega
    · have := ih h
      omega
  | case5 offset c rest _ _ _ ih =>
    rw [List.length_cons]
    have := ih h
    omega

/-- Lines begin one after the other. -/
theorem pairwise_lineStartsFrom (offset : Nat) (text : List Char) :
    (lineStartsFrom offset text).Pairwise (· < ·) := by
  fun_induction lineStartsFrom offset text with
  | case1 => exact List.Pairwise.nil
  | case2 offset rest ih =>
    exact List.pairwise_cons.mpr ⟨fun s hs ↦ (bounds_of_mem_lineStartsFrom hs).1, ih⟩
  | case3 offset rest _ ih =>
    exact List.pairwise_cons.mpr ⟨fun s hs ↦ (bounds_of_mem_lineStartsFrom hs).1, ih⟩
  | case4 offset rest ih =>
    exact List.pairwise_cons.mpr ⟨fun s hs ↦ (bounds_of_mem_lineStartsFrom hs).1, ih⟩
  | case5 offset c rest _ _ _ ih => exact ih

variable (d : Document)

theorem pairwise_lineStarts : d.lineStarts.Pairwise (· < ·) :=
  List.pairwise_cons.mpr
    ⟨fun _ hs ↦ (bounds_of_mem_lineStartsFrom hs).1, pairwise_lineStartsFrom 0 d.chars⟩

theorem le_length_of_mem_lineStarts {s : Nat} (h : s ∈ d.lineStarts) : s ≤ d.length := by
  rcases List.mem_cons.mp h with rfl | h
  · exact Nat.zero_le _
  · have := (bounds_of_mem_lineStartsFrom h).2
    rwa [Nat.zero_add] at this

section Drop

variable {d} {line line' start start' : Nat} {later later' : List Nat}

theorem drop_succ_lineStarts (h : d.lineStarts.drop line = start :: later) :
    d.lineStarts.drop (line + 1) = later := by
  rw [← List.drop_drop, h]
  rfl

/-- The lines after a line begin behind its beginning. -/
theorem start_lt_of_mem_later (h : d.lineStarts.drop line = start :: later) :
    ∀ s ∈ later, start < s := by
  have hpairwise := d.pairwise_lineStarts.drop (i := line)
  rw [h] at hpairwise
  exact (List.pairwise_cons.mp hpairwise).1

theorem mem_later_of_lt (h : d.lineStarts.drop line = start :: later)
    (h' : d.lineStarts.drop line' = start' :: later') (hlt : line < line') : start' ∈ later := by
  have hdrop : (d.lineStarts.drop line).drop (line' - line) = start' :: later' := by
    rw [List.drop_drop, Nat.add_sub_cancel' (Nat.le_of_lt hlt)]
    exact h'
  rw [h, show line' - line = (line' - line - 1) + 1 by omega, List.drop_succ_cons] at hdrop
  exact List.mem_of_mem_drop (by rw [hdrop]; exact List.mem_cons_self)

/-- As the line starts are strictly increasing from zero, each is at least its index. -/
theorem le_of_drop_lineStarts_eq (h : d.lineStarts.drop line = start :: later) :
    line ≤ start := by
  induction line generalizing start later with
  | zero => exact Nat.zero_le start
  | succ line ih =>
    have hlt : line < d.lineStarts.length := by
      have hlength := congrArg List.length h
      rw [List.length_drop, List.length_cons] at hlength
      omega
    have hline := List.drop_eq_getElem_cons hlt
    rw [h] at hline
    exact Nat.lt_of_le_of_lt (ih hline) (start_lt_of_mem_later hline start List.mem_cons_self)

end Drop

/-! ## The line of an offset -/

/-- An offset is on a line: the line begins at `start`, not behind the offset, and the lines
after it begin at `later`, all behind the offset. -/
structure OnLine (offset line start : Nat) (later : List Nat) : Prop where
  /-- The lines from this one on. -/
  drop_eq : d.lineStarts.drop line = start :: later
  /-- The line begins at the offset or before it. -/
  start_le : start ≤ offset
  /-- The next line begins behind the offset. -/
  lt_later : ∀ s ∈ later, offset < s

/-- Every offset is on some line. -/
theorem exists_onLine (offset : Nat) :
    ∃ line start later, d.OnLine offset line start later := by
  -- The line is the last of those that begin at or before the offset.
  have hsplit : d.lineStarts.takeWhile (· ≤ offset) ++ d.lineStarts.dropWhile (· ≤ offset) =
      d.lineStarts := List.takeWhile_append_dropWhile
  have hne : d.lineStarts.takeWhile (· ≤ offset) ≠ [] := by
    rw [lineStarts, List.takeWhile_cons_of_pos (by simp)]
    exact List.cons_ne_nil _ _
  obtain ⟨before, start, hbefore⟩ := List.eq_nil_or_concat _ |>.resolve_left hne
  rw [List.concat_eq_append] at hbefore
  refine ⟨before.length, start, d.lineStarts.dropWhile (· ≤ offset), ?_, ?_, ?_⟩
  · conv => lhs; rw [← hsplit, hbefore, List.append_assoc]
    exact List.drop_left
  · have hmem : start ∈ d.lineStarts.takeWhile (· ≤ offset) := by
      rw [hbefore]
      exact List.mem_append_right _ (List.mem_singleton_self _)
    simpa using List.mem_takeWhile_imp hmem
  · cases hlater : d.lineStarts.dropWhile (· ≤ offset) with
    | nil => simp
    | cons first others =>
      have hfirst : offset < first := by
        have := List.head?_dropWhile_not (fun s ↦ decide (s ≤ offset)) d.lineStarts
        rw [hlater] at this
        simpa using this
      have hpairwise := d.pairwise_lineStarts
      rw [← hsplit, hlater, List.pairwise_append] at hpairwise
      intro s hs
      rcases List.mem_cons.mp hs with rfl | hs
      · exact hfirst
      · exact Nat.lt_trans hfirst ((List.pairwise_cons.mp hpairwise.2.1).1 s hs)

variable {d} {offset line start : Nat} {later : List Nat}

namespace OnLine

/-- The lines before the line of an offset, that line, and the lines after it. -/
theorem split (h : d.OnLine offset line start later) :
    d.lineStarts = d.lineStarts.take line ++ start :: later := by
  rw [← h.drop_eq, List.take_append_drop]

theorem line_lt (h : d.OnLine offset line start later) : line < d.lineCount := by
  have hlength := congrArg List.length h.drop_eq
  rw [List.length_drop, List.length_cons] at hlength
  rw [lineCount]
  omega

theorem length_take (h : d.OnLine offset line start later) :
    (d.lineStarts.take line).length = line := by
  rw [List.length_take]
  exact Nat.min_eq_left (Nat.le_of_lt h.line_lt)

/-- The lines up to the line of an offset are those that begin at or before it. -/
theorem takeWhile_eq (h : d.OnLine offset line start later) :
    d.lineStarts.takeWhile (· ≤ offset) = d.lineStarts.take line ++ [start] := by
  have hpairwise := d.pairwise_lineStarts
  rw [h.split, List.pairwise_append] at hpairwise
  have hbefore : ∀ s ∈ d.lineStarts.take line, s ≤ offset := fun s hs ↦
    Nat.le_of_lt (Nat.lt_of_lt_of_le (hpairwise.2.2 s hs start List.mem_cons_self) h.start_le)
  have hlater : later.takeWhile (fun s ↦ decide (s ≤ offset)) = [] := by
    cases hcases : later with
    | nil => rfl
    | cons first others =>
      have hfirst := h.lt_later first (by rw [hcases]; exact List.mem_cons_self)
      rw [List.takeWhile_cons_of_neg (by simpa using hfirst)]
  conv => lhs; rw [h.split]
  rw [List.takeWhile_append_of_pos (by simpa using hbefore),
    List.takeWhile_cons_of_pos (by simpa using h.start_le), hlater]

/-- There are at most as many lines before a line as characters. -/
theorem line_le_start (h : d.OnLine offset line start later) : line ≤ start :=
  le_of_drop_lineStarts_eq h.drop_eq

end OnLine

/-! ## From offsets to positions -/

/-- The position of an offset of the document that fits a word is its line, and what is left from
the beginning of the line. -/
theorem OnLine.positionAt_eq_of_lt (h : d.OnLine offset line start later)
    (hoffset : offset ≤ d.length) (hword : offset < Position.bound) :
    d.positionAt offset = .ok ⟨line, offset - start⟩ := by
  have hline := h.line_le_start
  have hstart := h.start_le
  rw [positionAt, h.takeWhile_eq, List.length_append, h.length_take, List.length_singleton,
    Nat.add_sub_cancel, List.getLastD_concat]
  exact if_pos ⟨hoffset, by simp only; omega, by simp only; omega⟩

/-- In a short document every offset fits a word. -/
theorem OnLine.positionAt_eq (h : d.OnLine offset line start later)
    (hoffset : offset ≤ d.length) (hlength : d.length < Position.bound) :
    d.positionAt offset = .ok ⟨line, offset - start⟩ :=
  h.positionAt_eq_of_lt hoffset (Nat.lt_of_le_of_lt hoffset hlength)

theorem exists_positionAt_of_lt (hoffset : offset ≤ d.length) (hword : offset < Position.bound) :
    ∃ p, d.positionAt offset = .ok p := by
  obtain ⟨line, start, later, honLine⟩ := d.exists_onLine offset
  exact ⟨_, honLine.positionAt_eq_of_lt hoffset hword⟩

theorem positionAt_of_length_lt (h : d.length < offset) :
    d.positionAt offset = .error (.offsetOutOfRange offset d.length) :=
  if_neg fun hle ↦ Nat.not_lt.mpr hle.1 h

theorem positionAt_eq_ok_iff (hlength : d.length < Position.bound) {p : Position} :
    d.positionAt offset = .ok p ↔
      offset ≤ d.length ∧
        ∃ start later, d.OnLine offset p.line start later ∧ start + p.character = offset := by
  constructor
  · intro h
    by_cases hoffset : offset ≤ d.length
    · obtain ⟨line, start, later, honLine⟩ := d.exists_onLine offset
      rw [honLine.positionAt_eq hoffset hlength] at h
      cases h
      exact ⟨hoffset, start, later, honLine, Nat.add_sub_cancel' honLine.start_le⟩
    · rw [positionAt_of_length_lt (Nat.lt_of_not_le hoffset)] at h
      cases h
  · rintro ⟨hoffset, start, later, honLine, hcharacter⟩
    rw [honLine.positionAt_eq hoffset hlength]
    refine congrArg Except.ok (Position.ext rfl ?_)
    simp only
    omega

/-- An offset has a position just if it is an offset of the document. -/
theorem exists_positionAt_iff (hlength : d.length < Position.bound) :
    (∃ p, d.positionAt offset = .ok p) ↔ offset ≤ d.length := by
  constructor
  · rintro ⟨p, hp⟩
    exact ((positionAt_eq_ok_iff hlength).mp hp).1
  · exact fun hoffset ↦ exists_positionAt_of_lt hoffset (Nat.lt_of_le_of_lt hoffset hlength)

/-- Positions are in the order of their offsets. -/
theorem positionAt_le_positionAt (hlength : d.length < Position.bound) {offset' : Nat}
    {p p' : Position} (hp : d.positionAt offset = .ok p) (hp' : d.positionAt offset' = .ok p')
    (hle : offset ≤ offset') : p ≤ p' := by
  obtain ⟨-, start, later, h, hstart⟩ := (positionAt_eq_ok_iff hlength).mp hp
  obtain ⟨-, start', later', h', hstart'⟩ := (positionAt_eq_ok_iff hlength).mp hp'
  rw [Position.le_def]
  rcases Nat.lt_trichotomy p.line p'.line with hlt | heq | hgt
  · exact Or.inl hlt
  · refine Or.inr ⟨heq, ?_⟩
    have hdrop := h.drop_eq
    rw [heq, h'.drop_eq] at hdrop
    have := (List.cons.inj hdrop).1
    omega
  · -- The line of the smaller offset would be among the lines behind the larger one.
    exfalso
    have := h'.lt_later start (mem_later_of_lt h'.drop_eq h.drop_eq hgt)
    have := h.start_le
    omega

/-! ## From positions to offsets -/

/-- The offset of a position on a line that begins at `start`. -/
theorem offsetAt_of_drop_eq {p : Position} (h : d.lineStarts.drop p.line = start :: later) :
    d.offsetAt p = .ok (min (start + p.character) (later.headD d.length)) := by
  rw [offsetAt, h]

/-- A position has an offset just if its line is a line of the document. -/
theorem offsetAt_eq_error_iff {p : Position} :
    (∃ reason, d.offsetAt p = .error reason) ↔ d.lineCount ≤ p.line := by
  rw [lineCount, ← List.drop_eq_nil_iff, offsetAt]
  cases d.lineStarts.drop p.line with
  | nil => simp
  | cons start later => simp

theorem exists_offsetAt_iff {p : Position} :
    (∃ o, d.offsetAt p = .ok o) ↔ p.line < d.lineCount := by
  rw [← Nat.not_le, ← offsetAt_eq_error_iff]
  cases d.offsetAt p with
  | ok o => simp
  | error reason => simp

theorem offsetAt_le_length {p : Position} {o : Nat} (h : d.offsetAt p = .ok o) :
    o ≤ d.length := by
  rw [offsetAt] at h
  cases hdrop : d.lineStarts.drop p.line with
  | nil =>
    rw [hdrop] at h
    cases h
  | cons start later =>
    rw [hdrop] at h
    cases h
    refine Nat.le_trans (Nat.min_le_right _ _) ?_
    cases later with
    | nil => exact Nat.le_refl _
    | cons next others =>
      refine d.le_length_of_mem_lineStarts (List.mem_of_mem_drop (i := p.line) ?_)
      rw [hdrop]
      exact List.mem_cons_of_mem _ List.mem_cons_self

/-- The offset of the position of an offset is that offset. -/
theorem offsetAt_of_positionAt (hlength : d.length < Position.bound) {p : Position}
    (h : d.positionAt offset = .ok p) : d.offsetAt p = .ok offset := by
  obtain ⟨hoffset, start, later, honLine, hcharacter⟩ := (positionAt_eq_ok_iff hlength).mp h
  rw [offsetAt_of_drop_eq honLine.drop_eq, hcharacter]
  refine congrArg Except.ok (Nat.min_eq_left ?_)
  cases later with
  | nil => exact hoffset
  | cons next others => exact Nat.le_of_lt (honLine.lt_later next List.mem_cons_self)

/-! ## Places -/

/-- A position of a document: it has an offset in the document, and that offset leads back
to it. -/
def HasPlace (d : Document) (p : Position) : Prop :=
  ∃ o, o ≤ d.length ∧ d.offsetAt p = .ok o ∧ d.positionAt o = .ok p

theorem hasPlace_of_positionAt (hlength : d.length < Position.bound) {p : Position}
    (h : d.positionAt offset = .ok p) : d.HasPlace p :=
  ⟨offset, ((positionAt_eq_ok_iff hlength).mp h).1, offsetAt_of_positionAt hlength h, h⟩

end Document

/-- A range of a document: it runs forward, and both ends are positions of the document. -/
structure Range.IsIn (d : Document) (range : Range) : Prop where
  /-- The range does not end before it begins. -/
  start_le_stop : range.start ≤ range.stop
  /-- It begins in the document. -/
  start : d.HasPlace range.start
  /-- It ends in the document. -/
  stop : d.HasPlace range.stop

/-- The range between the positions of two offsets is a range of the document. -/
theorem Range.isIn_of_positionAt {d : Document} (hlength : d.length < Position.bound)
    {range : Range} {start stop : Nat} (hle : start ≤ stop)
    (hstart : d.positionAt start = .ok range.start)
    (hstop : d.positionAt stop = .ok range.stop) : range.IsIn d where
  start_le_stop := Document.positionAt_le_positionAt hlength hstart hstop hle
  start := Document.hasPlace_of_positionAt hlength hstart
  stop := Document.hasPlace_of_positionAt hlength hstop

end XmlDiagnostics
