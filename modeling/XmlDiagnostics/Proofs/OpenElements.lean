import XmlDiagnostics.Markup.OpenElement
import XmlDiagnostics.Proofs.IndexedPlaces

/-!
# Open elements, read forwards

The search for an open element goes back over the places where a `<` stands, and counts.  Read
forwards, the same places work on a stack: a start tag of the name puts its name on top, an end
tag takes the topmost one away.  `search_reverse` says that the search gives the stack back,
name by name: counting `closed` end tags means looking below so many names.

`stackBehind` reads a text forwards by its indices up to an offset, and what the search finds from
that offset is the top of the stack (`nameBefore?_eq_head?_stackBehind`).  Nothing is asked of the
text.  An end tag without a start tag before it finds the stack empty and leaves it so; the search
meets it after all start tags that are behind it, so its count is too late for them.
-/

namespace XmlDiagnostics.Markup.OpenElement

/-- The names on the stack after the place of one more `<`. -/
def pass (wanted : List Char) (names : List Name) (opening : Cursor) : List Name :=
  if Tag.isEndTag opening then
    if (Tag.endName? opening).any (·.answersTo wanted) then names.tail else names
  else
    match Tag.startName? opening with
    | none => names
    | some name =>
      if !name.answersTo wanted || Tag.isEmptyElement opening then names else name :: names

variable {wanted : List Char}

/-- Going back over one more place undoes one step of the stack. -/
theorem search_cons {names : List Name} {opening : Cursor} {earlier : List Cursor}
    (h : ∀ closed, search wanted closed earlier = names[closed]?) (closed : Nat) :
    search wanted closed (opening :: earlier) = (pass wanted names opening)[closed]? := by
  rw [search, pass]
  by_cases hend : Tag.isEndTag opening = true
  · rw [if_pos hend, if_pos hend]
    split
    · rw [h, List.getElem?_tail]
    · exact h closed
  · rw [if_neg hend, if_neg hend]
    cases Tag.startName? opening with
    | none => exact h closed
    | some name =>
      dsimp only
      split
      · exact h closed
      · cases closed with
        | zero => rfl
        | succ closed => exact h closed

/-- Going back over places finds what the stack holds after them, from the top, if going on from
there finds what it held before. -/
theorem search_reverse_append {names : List Name} {openings earlier : List Cursor}
    (h : ∀ closed, search wanted closed earlier = names[closed]?) (closed : Nat) :
    search wanted closed (openings.reverse ++ earlier) =
      (openings.foldl (pass wanted) names)[closed]? := by
  induction openings generalizing names earlier with
  | nil => exact h closed
  | cons opening later ih =>
    rw [List.reverse_cons, List.append_assoc, List.foldl_cons]
    exact ih (search_cons h)

/-- Going back over all places finds what the stack holds after them, from the top. -/
theorem search_reverse (wanted : List Char) (openings : List Cursor) (closed : Nat) :
    search wanted closed openings.reverse = (openings.foldl (pass wanted) [])[closed]? := by
  have happend : search wanted closed (openings.reverse ++ []) =
      (openings.foldl (pass wanted) [])[closed]? := search_reverse_append (fun _ ↦ rfl) closed
  rwa [List.append_nil] at happend

/-! ## A text up to an offset -/

/-- The names on the stack after the character at one more index: only a `<` does something. -/
def visit (text wanted : List Char) (names : List Name) (i : Nat) : List Name :=
  if text[i]? = some '<' then pass wanted names (Indexed.placeAt text i) else names

/-- The names on the stack after the characters at or before an offset, the topmost first. -/
def stackBehind (text : List Char) (offset : Nat) (wanted : List Char) : List Name :=
  (List.range (min (offset + 1) text.length)).foldl (visit text wanted) []

/-- Visiting indices one after the other is passing over the places with a `<` among them. -/
theorem foldl_visit (text wanted : List Char) (indices : List Nat) (names : List Name) :
    indices.foldl (visit text wanted) names =
      (Indexed.openingsAt text indices).foldl (pass wanted) names := by
  rw [Indexed.openingsAt, List.foldl_map, List.foldl_filter]
  simp only [decide_eq_true_eq]
  rfl

/-- With a number of end tags counted, the search from an offset finds the name that is so far below
the top of the stack. -/
theorem search_openingsBefore (text : List Char) (offset closed : Nat) (wanted : List Char) :
    search wanted closed (Tag.openingsBefore text offset) =
      (stackBehind text offset wanted)[closed]? := by
  have hreverse : Tag.openingsBefore text offset =
      (Indexed.openingsAt text (List.range (min (offset + 1) text.length))).reverse := by
    rw [Indexed.openingsBefore_eq, Indexed.openingsAt, Indexed.indicesBefore, List.filter_reverse,
      List.map_reverse]
    rfl
  rw [hreverse, search_reverse, stackBehind, foldl_visit]

/-- The name that the search finds is the top of the stack, and it finds none if the stack is
empty. -/
theorem nameBefore?_eq_head?_stackBehind (text : List Char) (offset : Nat) (wanted : List Char) :
    nameBefore? text offset wanted = (stackBehind text offset wanted).head? := by
  rw [nameBefore?, search_openingsBefore, List.head?_eq_getElem?]

/-- A stray end tag does not cancel a start tag behind it, and the offset may be behind the end. -/
example : nameBefore? "</a><a><a></a>".toList 99 ['a'] = some ⟨5, ['a']⟩ := by decide +kernel

end XmlDiagnostics.Markup.OpenElement
