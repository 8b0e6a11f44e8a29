import XmlDiagnostics.Markup.Tag

/-!
# The root element

The root element begins at the first start tag outside comments.
-/

namespace XmlDiagnostics.Markup

namespace Root

/-- The cursor after the end of a comment, from a cursor inside it.  A comment that is not
closed goes on to the end of the text. -/
def afterComment (c : Cursor) : Cursor :=
  match h : c.rest with
  | [] => c
  | _ :: _ =>
    if ['-', '-', '>'].isPrefixOf c.rest then c.skip 3
    else
      have : (c.skip 1).rest.length < c.rest.length := by simp [h]
      afterComment (c.skip 1)
termination_by c.rest.length

theorem length_rest_afterComment_le (c : Cursor) :
    (afterComment c).rest.length ≤ c.rest.length := by
  fun_induction afterComment c with
  | case1 => simp
  | case2 => simp
  | case3 c _ _ _ _ _ ih => simp only [Cursor.length_rest_skip] at ih; omega

/-- The first start tag outside comments, from a cursor outside comments. -/
def openingFrom? (c : Cursor) : Option Cursor :=
  match h : c.rest with
  | [] => none
  | first :: _ =>
    if ['<', '!', '-', '-'].isPrefixOf c.rest then
      have : (afterComment (c.skip 4)).rest.length < c.rest.length := by
        have := length_rest_afterComment_le (c.skip 4)
        simp only [Cursor.length_rest_skip, h, List.length_cons] at this ⊢
        omega
      openingFrom? (afterComment (c.skip 4))
    else if first = '<' ∧ (Tag.startName? c).isSome then some c
    else
      have : (c.skip 1).rest.length < c.rest.length := by simp [h]
      openingFrom? (c.skip 1)
termination_by c.rest.length

/-- The place where the root element begins. -/
def opening? (text : List Char) : Option Cursor :=
  openingFrom? (Cursor.start text)

/-- The name of the root element. -/
def name? (text : List Char) : Option Name :=
  (opening? text).bind Tag.startName?

/-- The first attribute of the root element that answers to `wanted`. -/
def attribute? (text : List Char) (wanted : List Char) : Option Attribute :=
  (opening? text).bind fun opening ↦
    (Tag.attributes opening).find? (·.name.answersTo wanted)

end Root

end XmlDiagnostics.Markup
