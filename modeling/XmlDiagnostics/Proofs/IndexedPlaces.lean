import XmlDiagnostics.Markup.Tag

/-!
# Places by their indices

A place of a text is known by its index.  The places where a `<` stands are those at whose index
there is one, in the order of the indices (`openings_eq`).  An offset cuts them into those that a
search goes back over (`openingsBefore_eq`) and those behind it (`openings_eq_append`).
-/

namespace XmlDiagnostics.Markup.Indexed

/-- The place with an index. -/
def placeAt (text : List Char) (i : Nat) : Cursor := ⟨i, text.drop i⟩

/-- The places with some indices at which a `<` stands. -/
def openingsAt (text : List Char) (indices : List Nat) : List Cursor :=
  (indices.filter fun i ↦ text[i]? = some '<').map (placeAt text)

/-- The indices at or before an offset at which a character stands, the last one first. -/
def indicesBefore (text : List Char) (offset : Nat) : List Nat :=
  (List.range (min (offset + 1) text.length)).reverse

/-- The indices behind an offset at which a character stands, in order. -/
def indicesBehind (text : List Char) (offset : Nat) : List Nat :=
  List.range' (min (offset + 1) text.length) (text.length - min (offset + 1) text.length)

variable {text : List Char} {offset i : Nat} {c : Cursor}

/-! ## One place -/

theorem placeAt_offset (hc : c.IsIn text) : placeAt text c.offset = c :=
  Cursor.ext rfl hc.2.symm

theorem placeAt_append (s t : List Char) : placeAt (s ++ t) s.length = ⟨s.length, t⟩ := by
  rw [placeAt, List.drop_left]

theorem peek?_placeAt (text : List Char) (i : Nat) : (placeAt text i).peek? = text[i]? := by
  rw [Cursor.peek?, placeAt, List.head?_drop]

theorem peek?_skip_placeAt (text : List Char) (i n : Nat) :
    ((placeAt text i).skip n).peek? = text[i + n]? := by
  rw [Cursor.peek?, Cursor.skip, placeAt, List.drop_drop, List.head?_drop]

/-- An index of a text is the index of a place where a character stands. -/
theorem exists_place (h : i < text.length) :
    ∃ (c : Cursor) (ch : Char), c.IsIn text ∧ c.offset = i ∧ c.peek? = some ch := by
  refine ⟨placeAt text i, text[i], ⟨Nat.le_of_lt h, rfl⟩, rfl, ?_⟩
  rw [peek?_placeAt, List.getElem?_eq_getElem h]

theorem mem_openingsAt_iff {indices : List Nat} :
    c ∈ openingsAt text indices ↔ ∃ i ∈ indices, text[i]? = some '<' ∧ placeAt text i = c := by
  simp only [openingsAt, List.mem_map, List.mem_filter, decide_eq_true_eq, and_assoc]

/-! ## All places -/

theorem places_eq (text : List Char) :
    Cursor.places text = (List.range text.length).map (placeAt text) := by
  have hfrom : ∀ (rest : List Char) (offset : Nat), Cursor.IsIn text ⟨offset, rest⟩ →
      Cursor.placesFrom offset rest = (List.range' offset rest.length).map (placeAt text) := by
    intro rest
    induction rest with
    | nil => exact fun _ _ ↦ rfl
    | cons ch rest ih =>
      intro offset hc
      rw [Cursor.placesFrom, ih (offset + 1) (hc.skip 1), List.length_cons, List.range'_succ,
        List.map_cons, placeAt, ← hc.2]
  rw [Cursor.places, hfrom text 0 (Cursor.isIn_start text), List.range_eq_range']

/-- The places where a `<` stands, by their indices. -/
theorem openings_eq (text : List Char) :
    Tag.openings text = openingsAt text (List.range text.length) := by
  rw [Tag.openings, places_eq, List.filter_map, openingsAt]
  refine congrArg (List.map _) (congrArg (List.filter · _) (funext fun i ↦ ?_))
  rw [Function.comp_apply, peek?_placeAt]

/-- The places where a `<` stands are all places of the text where one stands. -/
theorem mem_openings_iff : c ∈ Tag.openings text ↔ c.IsIn text ∧ c.peek? = some '<' := by
  rw [openings_eq, mem_openingsAt_iff]
  constructor
  · rintro ⟨i, hi, hopening, rfl⟩
    exact ⟨⟨Nat.le_of_lt (List.mem_range.mp hi), rfl⟩, (peek?_placeAt text i).trans hopening⟩
  · rintro ⟨hc, hpeek⟩
    have hopening : text[c.offset]? = some '<' := by
      rw [← peek?_placeAt, placeAt_offset hc, hpeek]
    have hlt := (List.getElem?_eq_some_iff.mp hopening).1
    exact ⟨c.offset, List.mem_range.mpr hlt, hopening, placeAt_offset hc⟩

theorem pairwise_openings (text : List Char) :
    (Tag.openings text).Pairwise fun c d ↦ c.offset < d.offset := by
  rw [openings_eq, openingsAt, List.pairwise_map]
  exact List.pairwise_lt_range.filter _

/-! ## Places before and behind an offset -/

theorem lt_length_of_mem_indicesBefore (h : i ∈ indicesBefore text offset) :
    i < text.length := by
  have hlt := List.mem_range.mp (List.mem_reverse.mp h)
  omega

theorem offset_le_of_mem_openingsAt
    (h : c ∈ openingsAt text (indicesBefore text offset).reverse) : c.offset ≤ offset := by
  obtain ⟨i, hi, -, rfl⟩ := mem_openingsAt_iff.mp h
  rw [indicesBefore, List.reverse_reverse, List.mem_range] at hi
  show i ≤ offset
  omega

theorem lt_offset_of_mem_openingsAt (h : c ∈ openingsAt text (indicesBehind text offset)) :
    offset < c.offset := by
  obtain ⟨i, hi, -, rfl⟩ := mem_openingsAt_iff.mp h
  rw [indicesBehind, List.mem_range'_1] at hi
  show offset < i
  omega

/-- An offset cuts the places where a `<` stands in two. -/
theorem openings_eq_append (text : List Char) (offset : Nat) :
    Tag.openings text = openingsAt text (indicesBefore text offset).reverse ++
      openingsAt text (indicesBehind text offset) := by
  have happend : List.range text.length =
      (indicesBefore text offset).reverse ++ indicesBehind text offset := by
    have h := @List.range'_append_1 0 (min (offset + 1) text.length)
      (text.length - min (offset + 1) text.length)
    rw [Nat.zero_add, Nat.add_sub_cancel' (Nat.min_le_right _ _)] at h
    rw [indicesBefore, List.reverse_reverse, indicesBehind, List.range_eq_range',
      List.range_eq_range', h]
  rw [openings_eq, happend, openingsAt, List.filter_append, List.map_append]
  rfl

/-- The places before an offset where a `<` stands, by their indices. -/
theorem openingsBefore_eq (text : List Char) (offset : Nat) :
    Tag.openingsBefore text offset = openingsAt text (indicesBefore text offset) := by
  have hbefore : ∀ c ∈ openingsAt text (indicesBefore text offset).reverse,
      decide (c.offset ≤ offset) = true :=
    fun c hc ↦ decide_eq_true (offset_le_of_mem_openingsAt hc)
  have hbehind : (openingsAt text (indicesBehind text offset)).takeWhile
      (fun c ↦ decide (c.offset ≤ offset)) = [] := by
    cases hplaces : openingsAt text (indicesBehind text offset) with
    | nil => rfl
    | cons c others =>
      have hc : offset < c.offset :=
        lt_offset_of_mem_openingsAt (by rw [hplaces]; exact List.mem_cons_self)
      exact List.takeWhile_cons_of_neg (by simpa using hc)
  rw [Tag.openingsBefore, openings_eq_append text offset, List.takeWhile_append_of_pos hbefore,
    hbehind, List.append_nil, openingsAt, ← List.map_reverse, ← List.filter_reverse,
    List.reverse_reverse]
  rfl

end XmlDiagnostics.Markup.Indexed
