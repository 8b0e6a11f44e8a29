import XmlDiagnostics.Markup.Name

/-!
# Entity references

An entity reference is an ampersand, a name, and a semicolon, which may be missing.  The
search starts at a character of the reference and goes back to the ampersand.
-/

namespace XmlDiagnostics.Markup

namespace Reference

/-- The characters up to an ampersand, from the reverse of a text: the text may end with a
semicolon, and between that and the ampersand only name characters may stand. -/
def upToAmpersand? (reversed : List Char) : Option (List Char) :=
  let body := match reversed with
    | ';' :: rest => rest
    | _ => reversed
  match body.dropWhile isNameChar with
  | '&' :: before => some before
  | _ => none

/-- The reference that begins at a cursor on an ampersand. -/
def at? (c : Cursor) : Option Span :=
  (Name.at? (c.skip 1)).map fun name ↦
    let stop := name.after (c.skip 1)
    if stop.peek? = some ';' then ⟨c.offset, stop.offset + 1⟩ else ⟨c.offset, stop.offset⟩

/-- The reference around the character at an offset, or around the last character if the
offset is after it. -/
def before? (text : List Char) (offset : Nat) : Option Span :=
  (upToAmpersand? (text.take (offset + 1)).reverse).bind fun before ↦
    at? ((Cursor.start text).skip before.length)

end Reference

end XmlDiagnostics.Markup
