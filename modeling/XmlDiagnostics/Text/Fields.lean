/-!
# Fields of a text

A separator cuts a text into fields, one more than it occurs; `joinWith` puts texts together
with a separator between them.  `fields_joinWith` says what comes back when a joined text is
cut again.
-/

namespace XmlDiagnostics.Text

/-- The fields of a text between the characters `separator`. -/
def fields (separator : Char) : List Char → List (List Char)
  | [] => [[]]
  | c :: rest =>
    if c = separator then [] :: fields separator rest
    else match fields separator rest with
      | [] => [[c]]
      | first :: others => (c :: first) :: others

/-- The texts in order, with `separator` between each two neighbours. -/
def joinWith (separator : List Char) : List (List Char) → List Char
  | [] => []
  | [s] => s
  | s :: t :: rest => s ++ separator ++ joinWith separator (t :: rest)

@[simp] theorem fields_ne_nil (separator : Char) (s : List Char) : fields separator s ≠ [] := by
  cases s with
  | nil => simp [fields]
  | cons c rest =>
    rw [fields]
    split
    · simp
    · split <;> simp

theorem fields_of_not_mem {separator : Char} {s : List Char} (h : separator ∉ s) :
    fields separator s = [s] := by
  induction s with
  | nil => rfl
  | cons c rest ih =>
    have hc : c ≠ separator := fun heq ↦ h (heq ▸ List.mem_cons_self)
    have hrest : separator ∉ rest := fun hmem ↦ h (List.mem_cons_of_mem c hmem)
    rw [fields, if_neg hc, ih hrest]

theorem fields_append_cons (separator : Char) (s t : List Char) :
    fields separator (s ++ separator :: t) = fields separator s ++ fields separator t := by
  induction s with
  | nil => simp [fields]
  | cons c rest ih =>
    obtain ⟨first, others, h⟩ := List.exists_cons_of_ne_nil (fields_ne_nil separator rest)
    rw [List.cons_append, fields, fields, ih, h]
    split
    · rfl
    · rfl

theorem append_joinWith (separator s t : List Char) (others : List (List Char)) :
    s ++ joinWith separator (t :: others) = joinWith separator ((s ++ t) :: others) := by
  cases others with
  | nil => rfl
  | cons u rest => simp only [joinWith, List.append_assoc]

/-- If texts are joined with a separator and something behind it, each of them but the first one
has that before its first field. -/
theorem fields_joinWith (separator : Char) (gap s : List Char) (others : List (List Char)) :
    fields separator (joinWith (separator :: gap) (s :: others)) =
      fields separator s ++ others.flatMap fun t ↦ fields separator (gap ++ t) := by
  induction others generalizing s with
  | nil => rw [joinWith, List.flatMap_nil, List.append_nil]
  | cons t rest ih =>
    rw [joinWith, List.append_assoc, List.cons_append, fields_append_cons, append_joinWith, ih,
      List.flatMap_cons]

/-- The part of a text after its last `separator`, or the whole text without one. -/
def lastField (separator : Char) (s : List Char) : List Char :=
  (s.reverse.takeWhile (· ≠ separator)).reverse

theorem not_mem_lastField (separator : Char) (s : List Char) :
    separator ∉ lastField separator s := by
  intro h
  have hne := List.all_eq_true.mp List.all_takeWhile separator (List.mem_reverse.mp h)
  exact absurd rfl (of_decide_eq_true hne)

/-- The last field is what follows a separator and has none, or the whole text without one. -/
theorem lastField_eq_iff {separator : Char} {s field : List Char} (h : separator ∉ field) :
    lastField separator s = field ↔
      s = field ∨ ∃ before, s = before ++ separator :: field := by
  constructor
  · rintro rfl
    have hsplit := List.takeWhile_append_dropWhile
      (p := fun c ↦ decide (c ≠ separator)) (l := s.reverse)
    cases hrest : s.reverse.dropWhile (fun c ↦ decide (c ≠ separator)) with
    | nil =>
      left
      rw [hrest, List.append_nil] at hsplit
      rw [lastField, hsplit, List.reverse_reverse]
    | cons c rest =>
      right
      have hc : c = separator := by
        have hhead := List.head?_dropWhile_not (fun c ↦ decide (c ≠ separator)) s.reverse
        rw [hrest] at hhead
        simpa using hhead
      refine ⟨rest.reverse, ?_⟩
      calc s
          = s.reverse.reverse := s.reverse_reverse.symm
        _ = rest.reverse ++ separator :: lastField separator s := by
          rw [← hsplit, hrest, hc, lastField]
          simp
  · have hfield : ∀ c ∈ field.reverse, decide (c ≠ separator) = true := by
      intro c hc
      refine decide_eq_true ?_
      rintro rfl
      exact h (List.mem_reverse.mp hc)
    rintro (rfl | ⟨before, rfl⟩)
    · rw [lastField, ← List.append_nil s.reverse, List.takeWhile_append_of_pos hfield,
        List.takeWhile_nil, List.append_nil, List.reverse_reverse]
    · rw [lastField, List.reverse_append, List.reverse_cons, List.append_assoc,
        List.takeWhile_append_of_pos hfield, List.singleton_append,
        List.takeWhile_cons_of_neg (by simp), List.append_nil, List.reverse_reverse]

/-- What stands before a separator makes no difference. -/
theorem lastField_append_cons (separator : Char) (before s : List Char) :
    lastField separator (before ++ separator :: s) = lastField separator s := by
  refine (lastField_eq_iff (not_mem_lastField separator s)).mpr (Or.inr ?_)
  rcases (lastField_eq_iff (not_mem_lastField separator s)).mp rfl with h | ⟨between, h⟩
  · exact ⟨before, by rw [← h]⟩
  · refine ⟨before ++ separator :: between, ?_⟩
    rw [List.append_assoc, List.cons_append, ← h]

theorem lastField_eq_self_iff {separator : Char} {s : List Char} :
    lastField separator s = s ↔ separator ∉ s := by
  constructor
  · intro h
    rw [← h]
    exact not_mem_lastField separator s
  · intro h
    exact (lastField_eq_iff h).mpr (Or.inl rfl)

theorem lastField_suffix (separator : Char) (s : List Char) : lastField separator s <:+ s := by
  rcases (lastField_eq_iff (not_mem_lastField separator s)).mp rfl with h | ⟨before, h⟩
  · exact ⟨[], h.symm⟩
  · exact ⟨before ++ [separator], by rw [List.append_assoc, List.singleton_append, ← h]⟩

/-- The part of a text before its first place where `pattern` stands, and the part after
it. -/
def cutAt? (pattern : List Char) : List Char → Option (List Char × List Char)
  | [] => if pattern = [] then some ([], []) else none
  | c :: rest =>
    if pattern.isPrefixOf (c :: rest) then some ([], (c :: rest).drop pattern.length)
    else (cutAt? pattern rest).map fun (before, after) => (c :: before, after)

/-- A pattern does not stand in a text without its first character. -/
theorem cutAt?_eq_none {c : Char} {pattern s : List Char} (h : c ∉ s) :
    cutAt? (c :: pattern) s = none := by
  induction s with
  | nil => rfl
  | cons d rest ih =>
    have hd : (c == d) = false := beq_eq_false_iff_ne.mpr fun heq ↦ h (heq ▸ List.mem_cons_self)
    have hrest : c ∉ rest := fun hmem ↦ h (List.mem_cons_of_mem d hmem)
    simp [cutAt?, List.isPrefixOf, hd, ih hrest]

/-- A pattern whose first character has not stood before cuts a text where it stands. -/
theorem cutAt?_append {c : Char} {pattern s : List Char} (h : c ∉ s) (t : List Char) :
    cutAt? (c :: pattern) (s ++ (c :: pattern ++ t)) = some (s, t) := by
  induction s with
  | nil =>
    have hprefix : (c :: pattern).isPrefixOf (c :: pattern ++ t) = true :=
      List.isPrefixOf_iff_prefix.mpr (List.prefix_append _ _)
    rw [List.cons_append] at hprefix
    rw [List.nil_append, List.cons_append, cutAt?, if_pos hprefix, ← List.cons_append,
      List.drop_left]
  | cons d rest ih =>
    have hd : (c == d) = false := beq_eq_false_iff_ne.mpr fun heq ↦ h (heq ▸ List.mem_cons_self)
    have hrest : c ∉ rest := fun hmem ↦ h (List.mem_cons_of_mem d hmem)
    rw [List.cons_append, cutAt?, ih hrest]
    simp [List.isPrefixOf, hd]

end XmlDiagnostics.Text
