import XmlDiagnostics.Markup.Tag

/-!
# The open element

An element without an end tag is found by going back from the place where the end tag is
missing and counting: an end tag of the name stands for an element that was closed, so one
start tag of the name has to be passed over for it.
-/

namespace XmlDiagnostics.Markup

namespace OpenElement

/-- Goes back over the places where a `<` stands.  `closed` is the number of end tags
whose start tags are still to come. -/
def search (wanted : List Char) : Nat → List Cursor → Option Name
  | _, [] => none
  | closed, opening :: earlier =>
    if Tag.isEndTag opening then
      if (Tag.endName? opening).any (·.answersTo wanted) then search wanted (closed + 1) earlier
      else search wanted closed earlier
    else
      match Tag.startName? opening with
      | none => search wanted closed earlier
      | some name =>
        if !name.answersTo wanted || Tag.isEmptyElement opening then search wanted closed earlier
        else
          match closed with
          | 0 => some name
          | closed + 1 => search wanted closed earlier

/-- The name in the nearest start tag that answers to `wanted` and is still open at an
offset. -/
def nameBefore? (text : List Char) (offset : Nat) (wanted : List Char) : Option Name :=
  search wanted 0 (Tag.openingsBefore text offset)

end OpenElement

end XmlDiagnostics.Markup
