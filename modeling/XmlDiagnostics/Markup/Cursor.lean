/-!
# Places in a text

A `Cursor` is a place in a text: its offset together with the characters from there on.
Searches move cursors, so that an offset and the text at that offset never come apart:
`Cursor.IsIn` says that a cursor is a place of a given text, and every move keeps it.
-/

namespace XmlDiagnostics.Markup

/-- A stretch of a text, by the offsets of its first character and of the first one after
it. -/
@[ext]
structure Span where
  /-- The offset of the first character. -/
  start : Nat
  /-- The offset after the last character. -/
  stop : Nat
deriving DecidableEq, Repr

/-- A place in a text. -/
@[ext]
structure Cursor where
  /-- The number of characters before the place. -/
  offset : Nat
  /-- The characters after the place. -/
  rest : List Char
deriving DecidableEq, Repr

namespace Cursor

/-- The beginning of a text. -/
def start (text : List Char) : Cursor := ⟨0, text⟩

/-- A cursor is in a text if what it has ahead is what the text has from its offset on. -/
def IsIn (text : List Char) (c : Cursor) : Prop :=
  c.offset ≤ text.length ∧ c.rest = text.drop c.offset

/-- The character at the cursor. -/
def peek? (c : Cursor) : Option Char :=
  c.rest.head?

/-- The cursor after `n` characters, or at the end of the text if there are fewer. -/
def skip (n : Nat) (c : Cursor) : Cursor :=
  ⟨c.offset + (c.rest.take n).length, c.rest.drop n⟩

/-- The cursor after all characters that satisfy `p` and follow it without a gap. -/
def skipWhile (p : Char → Bool) (c : Cursor) : Cursor :=
  ⟨c.offset + (c.rest.takeWhile p).length, c.rest.dropWhile p⟩

@[simp] theorem length_rest_skip (n : Nat) (c : Cursor) :
    (c.skip n).rest.length = c.rest.length - n := by
  simp [skip]

theorem length_rest_skipWhile_le (p : Char → Bool) (c : Cursor) :
    (c.skipWhile p).rest.length ≤ c.rest.length :=
  (List.dropWhile_suffix p).length_le

theorem isIn_start (text : List Char) : (start text).IsIn text := by
  simp [IsIn, start]

/-- A cursor that steps over a part of what it has ahead does not leave the text. -/
theorem IsIn.step {text before after : List Char} {c : Cursor} (h : c.IsIn text)
    (hrest : before ++ after = c.rest) : IsIn text ⟨c.offset + before.length, after⟩ := by
  obtain ⟨hle, hdrop⟩ := h
  have hlength := congrArg List.length (hrest.trans hdrop)
  simp only [List.length_append, List.length_drop] at hlength
  refine ⟨by simp only; omega, ?_⟩
  simp only
  rw [← List.drop_drop, ← hdrop, ← hrest, List.drop_left]

theorem IsIn.skip {text : List Char} {c : Cursor} (h : c.IsIn text) (n : Nat) :
    (c.skip n).IsIn text :=
  h.step (List.take_append_drop n c.rest)

theorem IsIn.skipWhile {text : List Char} {c : Cursor} (h : c.IsIn text) (p : Char → Bool) :
    (c.skipWhile p).IsIn text :=
  h.step List.takeWhile_append_dropWhile

/-- All places of a text from the cursor on, in order and without its end. -/
def placesFrom (offset : Nat) : List Char → List Cursor
  | [] => []
  | c :: rest => ⟨offset, c :: rest⟩ :: placesFrom (offset + 1) rest

/-- All places of a text at which a character stands, in order. -/
def places (text : List Char) : List Cursor :=
  placesFrom 0 text

end Cursor

end XmlDiagnostics.Markup
