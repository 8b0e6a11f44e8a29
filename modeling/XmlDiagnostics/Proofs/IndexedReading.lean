import XmlDiagnostics.Proofs.MarkupSpans

/-!
# Reading by index

A cursor carries the rest of the text along, so moving it can not go wrong.  With the text in an
array there is only an index, and much can go wrong: the index may be outside the text, a smaller
index may be needed where there is none, and a loop that jumps may never come to its end.

The readers here work with indices.  What may go wrong is a `Fault`, and every access, every
subtraction and every round of such a loop is checked for it.  Each reader is then shown to give,
without a fault, what the reader with a cursor gives.
-/

namespace XmlDiagnostics.Markup.Indexed

/-- What goes wrong with indices. -/
inductive Fault where
  /-- There is no character at an index. -/
  | outside
  /-- A number has to be taken from a smaller one. -/
  | underflow
  /-- A loop runs for more rounds than it was given. -/
  | endless
deriving DecidableEq, Repr

variable (text : List Char)

/-- The character at an index. -/
def charAt (i : Nat) : Except Fault Char :=
  match text[i]? with
  | some c => return c
  | none => throw .outside

/-- The characters of a stretch. -/
def charsOf (s : Span) : Except Fault (List Char) :=
  if s.start ≤ s.stop ∧ s.stop ≤ text.length then
    return (text.drop s.start).take (s.stop - s.start)
  else throw .outside

/-- A number less another one. -/
def minus (n k : Nat) : Except Fault Nat :=
  if k ≤ n then return n - k else throw .underflow

/-! ## Readers -/

/-- The first index from `i` on whose character satisfies a test. -/
def firstFrom? (p : Char → Bool) (i : Nat) : Except Fault (Option Nat) :=
  (List.range' i (text.length - i)).findM? fun j ↦ return p (← charAt text j)

/-- The name that begins at an index. -/
def nameAt? (i : Nat) : Except Fault (Option Span) := do
  if (text[i]?).any isNameStart then
    let stop ← firstFrom? text (fun c ↦ !isNameChar c) i
    return some ⟨i, stop.getD text.length⟩
  else return none

/-- Whether the name in a stretch answers to another one. -/
def answersTo (wanted : List Char) (s : Span) : Except Fault Bool :=
  return (⟨s.start, ← charsOf text s⟩ : Name).answersTo wanted

/-- The first index from `i` on at which no blank stands. -/
def skipBlanks (i : Nat) : Nat :=
  match h : text[i]? with
  | none => i
  | some c =>
    have : text.length - (i + 1) < text.length - i := by
      have := (List.getElem?_eq_some_iff.mp h).1
      omega
    if Text.isBlank c then skipBlanks (i + 1) else i
termination_by text.length - i

/-- The index after a value whose opening quote is at an index. -/
def afterValue (quote : Char) (i : Nat) : Except Fault Nat := do
  match ← firstFrom? text (fun c ↦ c = quote || c = '<') (i + 1) with
  | none => return text.length
  | some j => if (← charAt text j) = quote then return j + 1 else return j

/-- The value at an index, if there is a quote, and the index after it. -/
def valueAt (i : Nat) : Except Fault (Option Span × Nat) := do
  match text[i]? with
  | none => return (none, i)
  | some quote =>
    if Attribute.isQuote quote then
      let stop ← afterValue text quote i
      return (some ⟨i, stop⟩, stop)
    else return (none, i)

/-- What follows a name: the value, if there is one, and the index from which the next attribute is
read. -/
def valueAfter (i : Nat) : Except Fault (Option Span × Nat) :=
  if text[skipBlanks text i]? = some '=' then
    valueAt text (skipBlanks text (skipBlanks text i + 1))
  else return (none, skipBlanks text i)

/-- The names and values of the attributes from an index on, in a number of rounds. -/
def attributesFrom : Nat → Nat → Except Fault (List (Span × Option Span))
  | 0, _ => throw .endless
  | rounds + 1, i => do
    match ← nameAt? text (skipBlanks text i) with
    | none => return []
    | some name =>
      let (value, next) ← valueAfter text name.stop
      return (name, value) :: (← attributesFrom rounds next)

/-- The names and values of the attributes of the start tag that begins at an index. -/
def attributes (i : Nat) : Except Fault (List (Span × Option Span)) := do
  match ← nameAt? text (i + 1) with
  | none => return []
  | some name => attributesFrom text (text.length + 1) name.stop

/-- Whether the next angle bracket from an index on is a `>` just after a slash. -/
def closesWithSlash (i : Nat) : Except Fault Bool := do
  match ← firstFrom? text (fun c ↦ c = '<' || c = '>') i with
  | none => return false
  | some j =>
    if (← charAt text j) = '>' then return (← charAt text (← minus j 1)) = '/'
    else return false

/-- Whether the tag that begins at an index is the tag of an empty element. -/
def isEmptyElement (i : Nat) : Except Fault Bool :=
  closesWithSlash text (i + 1)

variable {text} {c : Cursor}

/-! ## Places -/

/-- At the index of a cursor stands what the cursor has ahead. -/
theorem getElem?_offset (hc : c.IsIn text) : text[c.offset]? = c.peek? := by
  rw [Cursor.peek?, hc.2, List.head?_drop]

theorem charAt_offset (hc : c.IsIn text) {ch : Char} (h : c.peek? = some ch) :
    charAt text c.offset = pure ch := by
  rw [charAt, getElem?_offset hc, h]

theorem getElem?_offset_succ (hc : c.IsIn text) {ch : Char} (h : c.peek? = some ch) :
    text[c.offset + 1]? = (c.skip 1).peek? := by
  rw [← getElem?_offset (hc.skip 1), Cursor.offset_skip_one h]

theorem length_sub_offset (hc : c.IsIn text) : text.length - c.offset = c.rest.length := by
  rw [hc.2, List.length_drop]

theorem isIn_tail {offset : Nat} {ch : Char} {rest : List Char}
    (hc : Cursor.IsIn text ⟨offset, ch :: rest⟩) : Cursor.IsIn text ⟨offset + 1, rest⟩ :=
  hc.skip 1

/-! ## The first of its kind -/

section FirstFrom

variable {p : Char → Bool} {offset : Nat} {ch : Char} {rest : List Char}

theorem firstFrom?_nil (hc : Cursor.IsIn text ⟨offset, []⟩) :
    firstFrom? text p offset = pure none := by
  rw [firstFrom?, length_sub_offset hc]
  rfl

theorem firstFrom?_cons (hc : Cursor.IsIn text ⟨offset, ch :: rest⟩) :
    firstFrom? text p offset =
      if p ch then pure (some offset) else firstFrom? text p (offset + 1) := by
  have hrest : text.length - (offset + 1) = rest.length := length_sub_offset (isIn_tail hc)
  rw [firstFrom?, firstFrom?, length_sub_offset hc, hrest, List.length_cons, List.range'_succ,
    List.findM?, charAt_offset hc rfl, pure_bind, pure_bind]
  cases p ch with
  | true => rfl
  | false => rfl

/-- The search for a character stops where skipping all others stops. -/
theorem firstFrom?_eq (hc : c.IsIn text) (p : Char → Bool) :
    firstFrom? text p c.offset =
      pure ((c.skipWhile fun ch ↦ !p ch).peek?.map
        fun _ ↦ (c.skipWhile fun ch ↦ !p ch).offset) := by
  obtain ⟨offset, rest⟩ := c
  induction rest generalizing offset with
  | nil => exact firstFrom?_nil hc
  | cons ch rest ih =>
    rw [firstFrom?_cons hc]
    cases h : p ch with
    | true => simp [Cursor.skipWhile, Cursor.peek?, h]
    | false =>
      rw [if_neg (by simp), ih (offset + 1) (isIn_tail hc)]
      simp [Cursor.skipWhile, h, Nat.add_assoc, Nat.add_comm 1]

end FirstFrom

theorem getD_length_eq_offset (hc : c.IsIn text) :
    (c.peek?.map fun _ ↦ c.offset).getD text.length = c.offset := by
  cases hpeek : c.peek? with
  | some ch => rfl
  | none =>
    have hrest : c.rest.length = 0 := by
      rw [List.head?_eq_none_iff.mp hpeek, List.length_nil]
    have hlength := length_sub_offset hc
    have hle := hc.1
    rw [Option.map_none, Option.getD_none]
    omega

/-! ## Names and blanks -/

/-- A name is read by index as it is read with a cursor. -/
theorem nameAt?_eq (hc : c.IsIn text) :
    nameAt? text c.offset = pure ((Name.at? c).map (·.span)) := by
  rw [nameAt?, getElem?_offset hc, firstFrom?_eq hc]
  obtain ⟨offset, rest⟩ := c
  cases rest with
  | nil => rfl
  | cons first rest =>
    by_cases hfirst : isNameStart first = true
    · have hskip := hc.skipWhile fun ch ↦ !!isNameChar ch
      rw [if_pos (by simpa [Cursor.peek?] using hfirst), pure_bind, getD_length_eq_offset hskip,
        Name.at?]
      simp [Cursor.skipWhile, Name.span, Name.stop, hfirst, isNameChar_of_isNameStart hfirst]
    · rw [if_neg (by simpa [Cursor.peek?] using hfirst), Name.at?]
      simp [hfirst]

theorem nameAt?_startTag (hc : c.IsIn text) {ch : Char} (h : c.peek? = some ch) :
    nameAt? text (c.offset + 1) = pure ((Tag.startName? c).map (·.span)) := by
  rw [← Cursor.offset_skip_one h, nameAt?_eq (hc.skip 1), Tag.startName?]

/-- The characters of a name that was read are read again. -/
theorem charsOf_span (hc : c.IsIn text) {n : Name} (h : Name.at? c = some n) :
    charsOf text n.span = pure n.chars := by
  have hspan := Name.isIn_span hc h
  obtain ⟨hstart, rest, hrest⟩ := Name.at?_eq_some h
  have hlength : n.span.stop - n.span.start = n.chars.length := Nat.add_sub_cancel_left ..
  have hdrop : text.drop n.span.start = n.chars ++ rest := by
    rw [hrest, hc.2, ← hstart]
    rfl
  rw [charsOf, if_pos ⟨Nat.le_of_lt hspan.start_lt, hspan.stop_le⟩, hdrop, hlength,
    List.take_left]

theorem answersTo_span (hc : c.IsIn text) {n : Name} (h : Name.at? c = some n)
    (wanted : List Char) : answersTo text wanted n.span = pure (n.answersTo wanted) := by
  rw [answersTo, charsOf_span hc h, pure_bind]
  rfl

theorem skipBlanks_eq (hc : c.IsIn text) :
    skipBlanks text c.offset = (Attribute.skipBlanks c).offset := by
  obtain ⟨offset, rest⟩ := c
  induction rest generalizing offset with
  | nil =>
    have hget : text[offset]? = none := getElem?_offset hc
    rw [skipBlanks]
    split
    · rfl
    · rename_i c hsome
      rw [hget] at hsome
      cases hsome
  | cons ch rest ih =>
    have hget : text[offset]? = some ch := getElem?_offset hc
    rw [skipBlanks]
    split
    · rename_i hnone
      rw [hget] at hnone
      cases hnone
    · rename_i c hsome
      cases hget.symm.trans hsome
      split
      · rename_i hblank
        rw [ih (offset + 1) (isIn_tail hc)]
        simp [Attribute.skipBlanks, Cursor.skipWhile, hblank, Nat.add_assoc, Nat.add_comm 1]
      · rename_i hblank
        simp [Attribute.skipBlanks, Cursor.skipWhile, hblank]

/-! ## Attributes -/

/-- The end of a value is found by index as it is found with a cursor. -/
theorem afterValue_eq (hc : c.IsIn text) {quote : Char} (hquote : c.peek? = some quote) :
    afterValue text quote c.offset = pure (Attribute.afterValue quote c).offset := by
  have hskip : (c.skip 1).offset = c.offset + 1 := Cursor.offset_skip_one hquote
  have hend : (Attribute.valueEnd quote c).IsIn text := (hc.skip 1).skipWhile _
  have htest : (c.skip 1).skipWhile (fun ch ↦ !(ch = quote || ch = '<')) =
      Attribute.valueEnd quote c := by
    simp [Attribute.valueEnd]
  rw [afterValue, ← hskip, firstFrom?_eq (hc.skip 1), htest, pure_bind, Attribute.afterValue]
  have hlength := getD_length_eq_offset hend
  cases hpeek : (Attribute.valueEnd quote c).peek? with
  | none =>
    rw [hpeek] at hlength
    rw [if_neg (by simp), ← hlength]
    rfl
  | some ch =>
    simp only [Option.map_some, charAt_offset hend hpeek, pure_bind, Option.some.injEq]
    split
    · rw [Cursor.offset_skip_one hpeek]
    · rfl

theorem valueAt_eq (hc : c.IsIn text) :
    valueAt text c.offset =
      pure ((Attribute.valueAt c).1, (Attribute.valueAt c).2.offset) := by
  rw [valueAt, getElem?_offset hc, Attribute.valueAt]
  cases hpeek : c.peek? with
  | none => rfl
  | some quote =>
    dsimp only
    split
    · rw [afterValue_eq hc hpeek, pure_bind]
    · rfl

theorem valueAfter_eq (hc : c.IsIn text) :
    valueAfter text c.offset =
      pure ((Attribute.valueAfter c).1, (Attribute.valueAfter c).2.offset) := by
  have hblanks := Attribute.isIn_skipBlanks hc
  rw [valueAfter, skipBlanks_eq hc, getElem?_offset hblanks, Attribute.valueAfter]
  split
  · rename_i hequals
    have hskip := hblanks.skip 1
    rw [← Cursor.offset_skip_one hequals, skipBlanks_eq hskip,
      valueAt_eq (Attribute.isIn_skipBlanks hskip)]
  · rfl

/-- The stretches of an attribute. -/
def stretches (a : Attribute) : Span × Option Span :=
  (a.name.span, a.value)

/-- As many rounds as there are characters left, and one more, are enough for all attributes. -/
theorem attributesFrom_eq (hc : c.IsIn text) {rounds : Nat} (h : c.rest.length < rounds) :
    attributesFrom text rounds c.offset = pure ((Attribute.readAll c).map stretches) := by
  fun_induction Attribute.readAll c generalizing rounds with
  | case1 c hnone =>
    obtain _ | rounds := rounds
    · cases h
    · rw [attributesFrom, skipBlanks_eq hc, nameAt?_eq (Attribute.isIn_skipBlanks hc), hnone,
        Option.map_none, pure_bind, List.map_nil]
  | case2 c name hname hlt ih =>
    obtain _ | rounds := rounds
    · cases h
    · have hblanks := Attribute.isIn_skipBlanks hc
      have hafter : (name.after (Attribute.skipBlanks c)).IsIn text := hblanks.skip _
      have hnext := (Attribute.isIn_valueAfter hafter).2
      have hstop : name.span.stop = (name.after (Attribute.skipBlanks c)).offset :=
        (Name.offset_after hname).symm
      rw [attributesFrom, skipBlanks_eq hc, nameAt?_eq hblanks, hname, Option.map_some, pure_bind]
      dsimp only
      rw [hstop, valueAfter_eq hafter, pure_bind]
      dsimp only
      rw [ih hnext (by omega), pure_bind, List.map_cons]
      rfl

theorem answersTo_of_mem_readAll (hc : c.IsIn text) (wanted : List Char) :
    ∀ a ∈ Attribute.readAll c,
      answersTo text wanted a.name.span = pure (a.name.answersTo wanted) := by
  fun_induction Attribute.readAll c with
  | case1 c hnone =>
    intro a ha
    cases ha
  | case2 c name hname hlt ih =>
    have hblanks := Attribute.isIn_skipBlanks hc
    have hnext := (Attribute.isIn_valueAfter (hblanks.skip name.chars.length)).2
    intro a ha
    rcases List.mem_cons.mp ha with rfl | ha
    · exact answersTo_span hblanks hname wanted
    · exact ih hnext a ha

theorem answersTo_of_mem_attributes (hc : c.IsIn text) (wanted : List Char) :
    ∀ a ∈ Tag.attributes c,
      answersTo text wanted a.name.span = pure (a.name.answersTo wanted) := by
  rw [Tag.attributes]
  split
  · intro a ha
    cases ha
  · rename_i name hname
    exact answersTo_of_mem_readAll ((hc.skip 1).skip name.chars.length) wanted

/-- The attributes of a start tag are read by index as they are read with a cursor. -/
theorem attributes_eq (hc : c.IsIn text) {ch : Char} (h : c.peek? = some ch) :
    attributes text c.offset = pure ((Tag.attributes c).map stretches) := by
  rw [attributes, nameAt?_startTag hc h, pure_bind, Tag.attributes]
  cases hname : Tag.startName? c with
  | none => rfl
  | some name =>
    have hafter : (name.after (c.skip 1)).IsIn text := (hc.skip 1).skip _
    have hstop : name.span.stop = (name.after (c.skip 1)).offset :=
      (Name.offset_after hname).symm
    have hrounds := length_sub_offset hafter
    rw [Option.map_some]
    dsimp only
    rw [hstop, attributesFrom_eq hafter (by omega)]

/-! ## Empty elements -/

/-- Going on to the next angle bracket, the character before is at hand. -/
theorem closesWithSlash_eq {offset : Nat} {rest : List Char}
    (hc : Cursor.IsIn text ⟨offset + 1, rest⟩) {previous : Char}
    (hprevious : text[offset]? = some previous) :
    closesWithSlash text (offset + 1) = pure (Tag.closesWithSlash previous rest) := by
  induction rest generalizing offset previous with
  | nil =>
    rw [closesWithSlash, firstFrom?_nil hc, pure_bind]
    rfl
  | cons ch rest ih =>
    have hch : charAt text (offset + 1) = pure ch := charAt_offset hc rfl
    have hminus : minus (offset + 1) 1 = pure offset := if_pos (Nat.le_add_left 1 offset)
    have hbefore : charAt text offset = pure previous := by rw [charAt, hprevious]
    rw [closesWithSlash, firstFrom?_cons hc, Tag.closesWithSlash]
    by_cases hclosing : ch = '>'
    · subst hclosing
      rw [if_pos (by decide), pure_bind]
      dsimp only
      rw [hch, pure_bind, if_pos rfl, hminus, pure_bind, hbefore, pure_bind, if_pos rfl]
    · by_cases hopening : ch = '<'
      · subst hopening
        rw [if_pos (by decide), pure_bind]
        dsimp only
        rw [hch, pure_bind, if_neg (by decide), if_neg (by decide), if_pos rfl]
      · rw [if_neg (by simp [hclosing, hopening]), if_neg hclosing, if_neg hopening]
        exact ih (isIn_tail hc) (getElem?_offset hc)

theorem isEmptyElement_eq (hc : c.IsIn text) (hopening : c.peek? = some '<') :
    isEmptyElement text c.offset = pure (Tag.isEmptyElement c) := by
  have hskip : (⟨c.offset + 1, (c.skip 1).rest⟩ : Cursor) = c.skip 1 :=
    Cursor.ext (Cursor.offset_skip_one hopening).symm rfl
  refine closesWithSlash_eq ?_ ((getElem?_offset hc).trans hopening)
  rw [hskip]
  exact hc.skip 1

end XmlDiagnostics.Markup.Indexed
