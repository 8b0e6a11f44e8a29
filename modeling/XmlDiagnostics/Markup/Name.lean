import XmlDiagnostics.Markup.Cursor
import XmlDiagnostics.Text.Fields
import XmlDiagnostics.Text.Numeric

/-!
# Names in markup

The names of elements, attributes and entities.  The characters that may stand in a name
are read generously, so that a name that a parser complains about is found all the same.

A name may have a prefix before a colon.  A search for a name without a colon also finds
the names whose local part it is.
-/

namespace XmlDiagnostics.Markup

/-- Whether a name may begin with the character. -/
def isNameStart (c : Char) : Bool :=
  Text.isAlphabetic c || c = '_' || c = ':'

/-- Whether the character may stand in a name. -/
def isNameChar (c : Char) : Bool :=
  Text.isAlphanumeric c || c = '_' || c = ':' || c = '-' || c = '.'

/-- What a name may begin with may also stand in it. -/
theorem isNameChar_of_isNameStart {c : Char} (h : isNameStart c = true) : isNameChar c = true := by
  simp only [isNameStart, isNameChar, Text.isAlphanumeric, Bool.or_eq_true] at h ⊢
  rcases h with (h | h) | h <;> simp [h]

/-- A name and where it stands. -/
@[ext]
structure Name where
  /-- The offset of its first character. -/
  start : Nat
  /-- Its characters. -/
  chars : List Char
deriving DecidableEq, Repr

namespace Name

/-- The offset after the last character. -/
def stop (n : Name) : Nat :=
  n.start + n.chars.length

/-- The stretch of the text that the name takes up. -/
def span (n : Name) : Span :=
  ⟨n.start, n.stop⟩

/-- The name at a cursor, as long as it can be. -/
def at? (c : Cursor) : Option Name :=
  match c.rest with
  | [] => none
  | first :: rest =>
    if isNameStart first then some ⟨c.offset, first :: rest.takeWhile isNameChar⟩ else none

/-- The cursor after a name that begins at the cursor `c`. -/
def after (n : Name) (c : Cursor) : Cursor :=
  c.skip n.chars.length

/-- Whether a search for `wanted` finds the name: they are equal, or `wanted` has no colon
and is what follows the last colon of the name. -/
def answersTo (n : Name) (wanted : List Char) : Bool :=
  n.chars = wanted || (':' ∉ wanted && Text.lastField ':' n.chars = wanted)

theorem chars_ne_nil_of_at? {c : Cursor} {n : Name} (h : at? c = some n) : n.chars ≠ [] := by
  unfold at? at h
  split at h
  · simp at h
  · split at h
    · rw [← Option.some.inj h]
      simp
    · simp at h

theorem isSome_at? (c : Cursor) : (at? c).isSome = c.peek?.any isNameStart := by
  obtain ⟨offset, rest⟩ := c
  cases rest with
  | nil => rfl
  | cons first rest =>
    simp only [at?, Cursor.peek?, List.head?_cons, Option.any_some]
    split
    · rename_i h
      rw [h]
      rfl
    · rename_i h
      rw [Bool.not_eq_true] at h
      rw [h]
      rfl

theorem length_rest_after_lt {c : Cursor} {n : Name} (h : at? c = some n) :
    (n.after c).rest.length < c.rest.length := by
  have hn := List.length_pos_iff.2 (chars_ne_nil_of_at? h)
  have hc : 0 < c.rest.length := by
    unfold at? at h
    split at h
    · simp at h
    · simp [*]
  simp only [after, Cursor.length_rest_skip]
  omega

end Name

end XmlDiagnostics.Markup
