import XmlDiagnostics.Markup.Name
import XmlDiagnostics.Text.Blank

/-!
# Attributes of a start tag

The attributes after the name of a start tag, read as far as they can be.  An attribute
without an equals sign, or with one but without a quote after it, has no value.  A value
that is not closed stops before the next `<`, or at the end of the text.
-/

namespace XmlDiagnostics.Markup

/-- An attribute and where its parts stand. -/
@[ext]
structure Attribute where
  /-- The name. -/
  name : Name
  /-- The value with its quotes, if there is one. -/
  value : Option Span
deriving DecidableEq, Repr

namespace Attribute

/-- The cursor after the blanks that follow it. -/
def skipBlanks (c : Cursor) : Cursor :=
  c.skipWhile Text.isBlank

/-- The characters of a value whose opening quote is at the cursor end here: at the same
quote, before a `<`, or at the end of the text. -/
def valueEnd (quote : Char) (c : Cursor) : Cursor :=
  (c.skip 1).skipWhile fun ch ↦ ch ≠ quote && ch ≠ '<'

/-- The cursor after a value whose opening quote is at the cursor. -/
def afterValue (quote : Char) (c : Cursor) : Cursor :=
  if (valueEnd quote c).peek? = some quote then (valueEnd quote c).skip 1 else valueEnd quote c

/-- Whether a value may stand between two of these characters. -/
def isQuote (c : Char) : Bool :=
  c = '"' || c = '\''

/-- The value at a cursor, if there is a quote, and the cursor after it. -/
def valueAt (c : Cursor) : Option Span × Cursor :=
  match c.peek? with
  | none => (none, c)
  | some quote =>
    if isQuote quote then (some ⟨c.offset, (afterValue quote c).offset⟩, afterValue quote c)
    else (none, c)

/-- What follows a name: the value, if there is one, and the cursor from which the next
attribute is read. -/
def valueAfter (c : Cursor) : Option Span × Cursor :=
  if (skipBlanks c).peek? = some '=' then valueAt (skipBlanks ((skipBlanks c).skip 1))
  else (none, skipBlanks c)

theorem length_rest_skipBlanks_le (c : Cursor) :
    (skipBlanks c).rest.length ≤ c.rest.length :=
  c.length_rest_skipWhile_le _

theorem length_rest_afterValue_le (quote : Char) (c : Cursor) :
    (afterValue quote c).rest.length ≤ c.rest.length := by
  have h : (valueEnd quote c).rest.length ≤ c.rest.length - 1 := by
    simpa [valueEnd] using (c.skip 1).length_rest_skipWhile_le fun ch ↦ ch ≠ quote && ch ≠ '<'
  unfold afterValue
  split
  · rw [Cursor.length_rest_skip]
    omega
  · omega

theorem length_rest_valueAt_le (c : Cursor) : (valueAt c).2.rest.length ≤ c.rest.length := by
  unfold valueAt
  split
  · exact Nat.le_refl _
  · split
    · exact length_rest_afterValue_le _ c
    · exact Nat.le_refl _

theorem length_rest_valueAfter_le (c : Cursor) :
    (valueAfter c).2.rest.length ≤ c.rest.length := by
  have h := length_rest_skipBlanks_le c
  unfold valueAfter
  split
  · refine Nat.le_trans (length_rest_valueAt_le _) (Nat.le_trans (length_rest_skipBlanks_le _) ?_)
    rw [Cursor.length_rest_skip]
    omega
  · exact h

/-- The attributes from a cursor on, up to the first place where no name begins. -/
def readAll (c : Cursor) : List Attribute :=
  match h : Name.at? (skipBlanks c) with
  | none => []
  | some name =>
    have : (valueAfter (name.after (skipBlanks c))).2.rest.length < c.rest.length :=
      Nat.lt_of_le_of_lt (length_rest_valueAfter_le _)
        (Nat.lt_of_lt_of_le (Name.length_rest_after_lt h) (length_rest_skipBlanks_le c))
    ⟨name, (valueAfter (name.after (skipBlanks c))).1⟩ ::
      readAll (valueAfter (name.after (skipBlanks c))).2
termination_by c.rest.length

end Attribute

end XmlDiagnostics.Markup
