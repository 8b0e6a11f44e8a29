import XmlDiagnostics.Markup.Attribute

/-!
# Tags near a place

A parser reports an error somewhere in or after the tag that it is about.  The searches
here go back from the reported offset: over the places where a `<` stands, the nearest
first.  They do not parse the document, so they also work on broken markup; a `<` inside
a value, for instance, passes for the beginning of a tag.
-/

namespace XmlDiagnostics.Markup

namespace Tag

/-- The places of a text where a `<` stands, in order. -/
def openings (text : List Char) : List Cursor :=
  (Cursor.places text).filter fun c ↦ c.peek? = some '<'

/-- The places at or before an offset where a `<` stands, the nearest first. -/
def openingsBefore (text : List Char) (offset : Nat) : List Cursor :=
  ((openings text).takeWhile fun c ↦ c.offset ≤ offset).reverse

/-- The name of the start tag that begins at a `<`. -/
def startName? (opening : Cursor) : Option Name :=
  Name.at? (opening.skip 1)

/-- Whether an end tag begins at a `<`. -/
def isEndTag (opening : Cursor) : Bool :=
  (opening.skip 1).peek? = some '/'

/-- The name of the end tag that begins at a `<`. -/
def endName? (opening : Cursor) : Option Name :=
  if isEndTag opening then Name.at? (opening.skip 2) else none

/-- Whether the next angle bracket of a text is a `>` just after a slash.  `previous` is the
character before the text. -/
def closesWithSlash (previous : Char) : List Char → Bool
  | [] => false
  | c :: rest =>
    if c = '>' then previous = '/'
    else if c = '<' then false
    else closesWithSlash c rest

/-- Whether the tag that begins at a `<` is the tag of an empty element. -/
def isEmptyElement (opening : Cursor) : Bool :=
  closesWithSlash '<' (opening.skip 1).rest

/-- The attributes of the start tag that begins at a `<`. -/
def attributes (opening : Cursor) : List Attribute :=
  match startName? opening with
  | none => []
  | some name => Attribute.readAll (name.after (opening.skip 1))

/-- The name in the nearest start tag at or before an offset that answers to `wanted`. -/
def startNameBefore? (text : List Char) (offset : Nat) (wanted : List Char) : Option Name :=
  (openingsBefore text offset).findSome? fun opening ↦
    (startName? opening).filter (·.answersTo wanted)

/-- The attribute that answers to `wanted` in the nearest start tag at or before an offset
that has one.  Of several in one tag it is the last that begins at or before the
offset. -/
def attributeBefore? (text : List Char) (offset : Nat) (wanted : List Char) : Option Attribute :=
  (openingsBefore text offset).findSome? fun opening ↦
    (attributes opening).reverse.find? fun a ↦ a.name.start ≤ offset && a.name.answersTo wanted

/-- The beginning of the nearest end tag at or before an offset. -/
def endTagBefore? (text : List Char) (offset : Nat) : Option Cursor :=
  (openingsBefore text offset).find? isEndTag

/-- The name in the nearest end tag at or before an offset. -/
def endNameBefore? (text : List Char) (offset : Nat) : Option Name :=
  (endTagBefore? text offset).bind endName?

/-- The stretch between the last `>` of a text and its end, unless it is empty or there is
no `>`. -/
def contentAtEnd? (before : List Char) : Option Span :=
  let length := (before.reverse.takeWhile (· ≠ '>')).length
  if 0 < length ∧ length < before.length then
    some ⟨before.length - length, before.length⟩
  else none

/-- The text just before the nearest end tag at or before an offset. -/
def contentBefore? (text : List Char) (offset : Nat) : Option Span :=
  (endTagBefore? text offset).bind fun opening ↦ contentAtEnd? (text.take opening.offset)

end Tag

end XmlDiagnostics.Markup
