import XmlDiagnostics.Word

/-!
# Positions in a text

A `Position` names a place by line and character, both counted from zero, in the order
of the text.  A `Range` goes from one position to another; nothing is asked of their
order, since a range may come from outside.
-/

namespace XmlDiagnostics

/-- A line and a character on it, both counted from zero. -/
@[ext]
structure Position where
  /-- The number of lines before this one. -/
  line : Nat
  /-- The number of characters before this place on its line. -/
  character : Nat
deriving DecidableEq, Repr

namespace Position

/-- Coordinates are below this bound, so that they fit a word of 32 bits. -/
def bound : Nat := Word.count 32

/-- Positions are ordered by line, and on one line by character. -/
protected def compare (p q : Position) : Ordering :=
  (compare p.line q.line).then (compare p.character q.character)

instance : Ord Position := ⟨Position.compare⟩

instance : LT Position :=
  ⟨fun p q ↦ p.line < q.line ∨ (p.line = q.line ∧ p.character < q.character)⟩

instance : LE Position :=
  ⟨fun p q ↦ p.line < q.line ∨ (p.line = q.line ∧ p.character ≤ q.character)⟩

instance (p q : Position) : Decidable (p < q) :=
  inferInstanceAs (Decidable (_ ∨ (_ ∧ _)))

instance (p q : Position) : Decidable (p ≤ q) :=
  inferInstanceAs (Decidable (_ ∨ (_ ∧ _)))

theorem lt_def {p q : Position} :
    p < q ↔ p.line < q.line ∨ (p.line = q.line ∧ p.character < q.character) := Iff.rfl

theorem le_def {p q : Position} :
    p ≤ q ↔ p.line < q.line ∨ (p.line = q.line ∧ p.character ≤ q.character) := Iff.rfl

/-- Comparing positions decides their strict order. -/
theorem compare_eq_lt_iff {p q : Position} : p.compare q = .lt ↔ p < q := by
  rw [Position.compare, Ordering.then_eq_lt, Nat.compare_eq_lt, Nat.compare_eq_eq,
    Nat.compare_eq_lt]
  rfl

theorem compare_ne_gt_iff {p q : Position} : p.compare q ≠ .gt ↔ p ≤ q := by
  rw [Position.compare, ne_eq, Ordering.then_eq_gt, Nat.compare_eq_gt, Nat.compare_eq_eq,
    Nat.compare_eq_gt, le_def]
  omega

/-- A position is written as its two coordinates around a colon. -/
def text (p : Position) : String :=
  toString p.line ++ ":" ++ toString p.character

end Position

/-- The stretch of a text from one position up to another. -/
@[ext]
structure Range where
  /-- Where the range begins. -/
  start : Position
  /-- The first position after the range. -/
  stop : Position
deriving DecidableEq, Repr

namespace Range

/-- The range without characters at one position. -/
def collapsed (p : Position) : Range :=
  ⟨p, p⟩

/-- Whether a range holds no character because it ends where it begins. -/
def isCollapsed (r : Range) : Bool :=
  r.start = r.stop

/-- A range is written as its two positions in square brackets. -/
def text (r : Range) : String :=
  "[" ++ r.start.text ++ ", " ++ r.stop.text ++ "]"

end Range

end XmlDiagnostics
