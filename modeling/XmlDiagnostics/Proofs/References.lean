import XmlDiagnostics.Proofs.IndexedSearches
import XmlDiagnostics.Proofs.WrittenMarkup

/-!
# References in a text

A reference is an ampersand and a name that is as long as it can be, with the semicolon behind it if
there is one: `Reference.IsToken`.  The search for the reference around an offset goes back to an
ampersand over name characters, with a semicolon allowed at the beginning only, and then forwards
over the name.  What it passes over on the way back is a part of what it passes over on the way
forwards (`Reference.passes_iff_covers`), so it finds the reference that covers the offset.

There is at most one: two references that cover one place are both found from there.
-/

namespace XmlDiagnostics.Markup

/-- A stretch covers the places from its first character up to its last one. -/
def Span.Covers (s : Span) (i : Nat) : Prop :=
  s.start ≤ i ∧ i < s.stop

namespace Reference

/-- A text falls into what is before an ampersand, the name behind that, and what follows the
name. -/
structure Splits (text before name after : List Char) : Prop where
  /-- Nothing else is in the text. -/
  text_eq : text = before ++ '&' :: (name ++ after)
  /-- Behind the ampersand there is a name. -/
  isName : IsName name
  /-- The name is as long as it can be. -/
  endsName : EndsName after

/-- Where the reference in such a text stands: a semicolon behind the name belongs to it. -/
def spanOf (before name after : List Char) : Span :=
  ⟨before.length, before.length + 1 + name.length + if after.head? = some ';' then 1 else 0⟩

/-- A stretch of a text is a reference. -/
def IsToken (text : List Char) (s : Span) : Prop :=
  ∃ before name after, Splits text before name after ∧ s = spanOf before name after

/-- Characters that a search may pass over before it comes back to an ampersand: name characters,
and a semicolon behind them. -/
def IsPassed (s : List Char) : Prop :=
  ∃ names closing, s = names ++ closing ∧ (∀ c ∈ names, isNameChar c = true) ∧
    (closing = [] ∨ closing = [';'])

variable {text before name after reversed : List Char} {s t : Span} {offset : Nat}

/-! ## The way back -/

/-- The way back leads over name characters to an ampersand. -/
theorem backToAmpersand?_eq_some_iff :
    Indexed.backToAmpersand? reversed = some before ↔
      ∃ names, reversed = names ++ '&' :: before ∧ ∀ c ∈ names, isNameChar c = true := by
  constructor
  · intro h
    unfold Indexed.backToAmpersand? at h
    split at h
    · rename_i hrest
      cases h
      refine ⟨reversed.takeWhile isNameChar, ?_, List.all_eq_true.mp List.all_takeWhile⟩
      rw [← hrest, List.takeWhile_append_dropWhile]
    · cases h
  · rintro ⟨names, rfl, hnames⟩
    rw [Indexed.backToAmpersand?, List.dropWhile_append_of_pos hnames,
      List.dropWhile_cons_of_neg (by decide)]
    rfl

theorem upToAmpersand?_of_head?_ne (h : reversed.head? ≠ some ';') :
    upToAmpersand? reversed = Indexed.backToAmpersand? reversed := by
  cases reversed with
  | nil => rfl
  | cons ch rest =>
    rw [Indexed.upToAmpersand?_cons, if_neg]
    rintro rfl
    exact h rfl

/-- The search goes back to an ampersand behind which it may pass over everything. -/
theorem upToAmpersand?_eq_some_iff :
    upToAmpersand? text.reverse = some before.reverse ↔
      ∃ passed, text = before ++ '&' :: passed ∧ IsPassed passed := by
  constructor
  · intro h
    rw [← text.reverse_reverse]
    cases hreverse : text.reverse with
    | nil =>
      rw [hreverse] at h
      cases h
    | cons ch rest =>
      rw [hreverse, Indexed.upToAmpersand?_cons] at h
      split at h
      · rename_i hsemicolon
        obtain ⟨names, rfl, hnames⟩ := backToAmpersand?_eq_some_iff.mp h
        refine ⟨names.reverse ++ [';'], by simp [hsemicolon], names.reverse, [';'], rfl, ?_,
          Or.inr rfl⟩
        exact fun c hc ↦ hnames c (List.mem_reverse.mp hc)
      · obtain ⟨names, hnames, hall⟩ := backToAmpersand?_eq_some_iff.mp h
        refine ⟨names.reverse, by simp [hnames], names.reverse, [], ?_, ?_, Or.inl rfl⟩
        · rw [List.append_nil]
        · exact fun c hc ↦ hall c (List.mem_reverse.mp hc)
  · rintro ⟨_, rfl, names, closing, rfl, hnames, hclosing⟩
    have hreverse : ∀ c ∈ names.reverse, isNameChar c = true :=
      fun c hc ↦ hnames c (List.mem_reverse.mp hc)
    have hback : Indexed.backToAmpersand? (names.reverse ++ '&' :: before.reverse) =
        some before.reverse := backToAmpersand?_eq_some_iff.mpr ⟨_, rfl, hreverse⟩
    rcases hclosing with rfl | rfl
    · have happend : (before ++ '&' :: (names ++ [])).reverse =
          names.reverse ++ '&' :: before.reverse := by simp
      rw [happend, upToAmpersand?_of_head?_ne, hback]
      -- What is passed over first is a name character, or already the ampersand.
      cases hhead : names.reverse with
      | nil => exact fun h ↦ absurd (Option.some.inj h) (by decide)
      | cons first rest =>
        rintro h
        have hfirst := hreverse first (by rw [hhead]; exact List.mem_cons_self)
        rw [Option.some.inj h] at hfirst
        exact absurd hfirst (by decide)
    · have happend : (before ++ '&' :: (names ++ [';'])).reverse =
          ';' :: (names.reverse ++ '&' :: before.reverse) := by simp
      rw [happend, Indexed.upToAmpersand?_cons, if_pos rfl, hback]

/-! ## The way forwards -/

theorem at?_eq_some_iff {rest : List Char} :
    at? ⟨before.length, '&' :: rest⟩ = some s ↔
      ∃ name after, Splits (before ++ '&' :: rest) before name after ∧
        s = spanOf before name after := by
  have hspan : ∀ {name after : List Char}, IsName name → EndsName after →
      at? ⟨before.length, '&' :: (name ++ after)⟩ = some (spanOf before name after) := by
    intro name after hname hafter
    have hskip : (⟨before.length, '&' :: (name ++ after)⟩ : Cursor).skip 1 =
        ⟨before.length + 1, name ++ after⟩ := rfl
    have hstop : (⟨before.length + 1, name⟩ : Name).after ⟨before.length + 1, name ++ after⟩ =
        ⟨before.length + 1 + name.length, after⟩ := Name.after_append ⟨_, name⟩ _ after
    rw [at?, hskip, Name.at?_append hname hafter, Option.map_some]
    dsimp only
    rw [hstop, spanOf, Cursor.peek?]
    split
    · rfl
    · rfl
  constructor
  · intro h
    obtain ⟨n, hn, -⟩ := Option.map_eq_some_iff.mp h
    obtain ⟨-, hname, after, hafter, hrest⟩ := Name.at?_eq_some_iff.mp hn
    have hrest : n.chars ++ after = rest := hrest
    subst hrest
    refine ⟨n.chars, after, ⟨rfl, hname, hafter⟩, ?_⟩
    rw [hspan hname hafter] at h
    exact (Option.some.inj h).symm
  · rintro ⟨name, after, hsplits, rfl⟩
    have hrest : rest = name ++ after := by
      have h := List.append_cancel_left hsplits.text_eq
      exact (List.cons.inj h).2
    rw [hrest, hspan hsplits.isName hsplits.endsName]

/-! ## Both ways -/

/-- The search finds the reference behind an ampersand, if the text up to the offset is what is
before that ampersand, and what it may pass over behind it. -/
theorem before?_eq_some_iff_passes :
    before? text offset = some s ↔
      ∃ before name after passed, Splits text before name after ∧ s = spanOf before name after ∧
        text.take (offset + 1) = before ++ '&' :: passed ∧ IsPassed passed := by
  have hplace : ∀ {before passed : List Char}, text.take (offset + 1) = before ++ '&' :: passed →
      ∃ rest, text = before ++ '&' :: rest ∧
        (Cursor.start text).skip before.length = ⟨before.length, '&' :: rest⟩ := by
    intro before passed htake
    have htext : text = before ++ '&' :: (passed ++ text.drop (offset + 1)) := by
      calc text
          = text.take (offset + 1) ++ text.drop (offset + 1) := (List.take_append_drop ..).symm
        _ = before ++ '&' :: (passed ++ text.drop (offset + 1)) := by
          rw [htake, List.append_assoc, List.cons_append]
    refine ⟨passed ++ text.drop (offset + 1), htext, ?_⟩
    have hskip := Cursor.skip_append 0 before ('&' :: (passed ++ text.drop (offset + 1)))
    rw [← htext, Nat.zero_add] at hskip
    exact hskip
  constructor
  · intro h
    obtain ⟨reversed, hup, hat⟩ := Option.bind_eq_some_iff.mp h
    rw [← reversed.reverse_reverse] at hup
    obtain ⟨passed, htake, hpassed⟩ := upToAmpersand?_eq_some_iff.mp hup
    obtain ⟨rest, htext, hskip⟩ := hplace htake
    rw [← List.length_reverse, hskip] at hat
    obtain ⟨name, after, hsplits, hs⟩ := at?_eq_some_iff.mp hat
    rw [← htext] at hsplits
    exact ⟨reversed.reverse, name, after, passed, hsplits, hs, htake, hpassed⟩
  · rintro ⟨before, name, after, passed, hsplits, rfl, htake, hpassed⟩
    obtain ⟨rest, htext, hskip⟩ := hplace htake
    have hup := upToAmpersand?_eq_some_iff.mpr ⟨passed, htake, hpassed⟩
    rw [before?, hup, Option.bind_some, List.length_reverse, hskip]
    rw [htext] at hsplits
    exact at?_eq_some_iff.mpr ⟨name, after, hsplits, rfl⟩

/-- Name characters at the place of a name do not go beyond it. -/
theorem length_le_of_endsName {names rest : List Char} (hnames : ∀ c ∈ names, isNameChar c = true)
    (hafter : EndsName after) (h : names ++ rest = name ++ after) : names.length ≤ name.length := by
  rcases List.append_eq_append_iff.mp h with ⟨others, rfl, -⟩ | ⟨others, rfl, hrest⟩
  · rw [List.length_append]
    exact Nat.le_add_right _ _
  · cases others with
    | nil => rw [List.append_nil]
    | cons first others =>
      have hfirst := hnames first (List.mem_append_right _ List.mem_cons_self)
      rw [hafter first (by rw [hrest]; rfl)] at hfirst
      cases hfirst

/-- What may be passed over on the way back is part of the name and its semicolon. -/
theorem length_le_of_isPassed {passed behind : List Char} (hafter : EndsName after)
    (h : passed ++ behind = name ++ after) (hpassed : IsPassed passed) :
    passed.length ≤ name.length + if after.head? = some ';' then 1 else 0 := by
  obtain ⟨names, closing, rfl, hnames, hclosing⟩ := hpassed
  rw [List.append_assoc] at h
  have hle := length_le_of_endsName hnames hafter h
  rcases hclosing with rfl | rfl
  · rw [List.append_nil]
    omega
  · rw [List.length_append, List.length_singleton]
    rcases Nat.lt_or_eq_of_le hle with hlt | heq
    · omega
    · -- The semicolon is what follows the name.
      have hsemicolon : after.head? = some ';' := by
        rw [← (List.append_inj h heq).2]
        rfl
      rw [if_pos hsemicolon]
      omega

/-- A part of the name, or of the name and its semicolon, may be passed over. -/
theorem isPassed_take {n : Nat} (hname : IsName name)
    (h : n ≤ name.length + if after.head? = some ';' then 1 else 0) :
    IsPassed ((name ++ after).take n) := by
  by_cases hle : n ≤ name.length
  · refine ⟨name.take n, [], ?_, ?_, Or.inl rfl⟩
    · rw [List.append_nil, List.take_append_of_le_length hle]
    · exact fun c hc ↦ hname.isNameChar c (List.mem_of_mem_take hc)
  · split at h
    · rename_i hhead
      obtain ⟨rest, rfl⟩ : ∃ rest, after = ';' :: rest := by
        cases after with
        | nil => cases hhead
        | cons first rest =>
          rw [Option.some.inj hhead]
          exact ⟨rest, rfl⟩
      obtain rfl : n = name.length + 1 := by omega
      refine ⟨name, [';'], ?_, hname.isNameChar, Or.inr rfl⟩
      rw [List.take_length_add_append]
      rfl
    · exact absurd h hle

/-- The text up to an offset ends in what may be passed over behind an ampersand just if the
reference behind it covers the offset, or the last character if the offset is after it. -/
theorem passes_iff_covers (h : Splits text before name after) :
    (∃ passed, text.take (offset + 1) = before ++ '&' :: passed ∧ IsPassed passed) ↔
      (spanOf before name after).Covers (min offset (text.length - 1)) := by
  obtain ⟨rfl, hname, hafter⟩ := h
  have hlength : (before ++ '&' :: (name ++ after)).length =
      before.length + 1 + (name.length + after.length) := by
    simp only [List.length_append, List.length_cons]
    omega
  constructor
  · rintro ⟨passed, htake, hpassed⟩
    have hbehind : passed ++ (before ++ '&' :: (name ++ after)).drop (offset + 1) =
        name ++ after := by
      have happend := List.take_append_drop (offset + 1) (before ++ '&' :: (name ++ after))
      rw [htake, List.append_assoc] at happend
      exact (List.cons.inj (List.append_cancel_left happend)).2
    have hle := length_le_of_isPassed hafter hbehind hpassed
    have htaken := congrArg List.length htake
    rw [List.length_take, hlength, List.length_append, List.length_cons] at htaken
    rw [hlength]
    constructor
    · show before.length ≤ _
      omega
    · show _ < before.length + 1 + name.length + _
      omega
  · rintro ⟨hlow, hhigh⟩
    rw [hlength] at hlow hhigh
    have hlow : before.length ≤ _ := hlow
    have hhigh : _ < before.length + 1 + name.length + _ := hhigh
    -- What is passed over are the characters behind the ampersand, up to the offset.
    obtain ⟨n, hn⟩ := Nat.exists_eq_add_of_le hlow
    have htake : (before ++ '&' :: (name ++ after)).take (offset + 1) =
        before ++ '&' :: (name ++ after).take n := by
      have hmin : min (offset + 1) (before ++ '&' :: (name ++ after)).length =
          before.length + (n + 1) := by
        rw [hlength]
        omega
      rw [List.take_eq_take_min, hmin, List.take_length_add_append, List.take_succ_cons]
    exact ⟨_, htake, isPassed_take hname (by omega)⟩

/-- The search finds the reference that covers the offset, or the last character if the offset is
after it. -/
theorem before?_eq_some_iff :
    before? text offset = some s ↔ IsToken text s ∧ s.Covers (min offset (text.length - 1)) := by
  rw [before?_eq_some_iff_passes]
  constructor
  · rintro ⟨before, name, after, passed, hsplits, rfl, hpasses⟩
    exact ⟨⟨before, name, after, hsplits, rfl⟩,
      (passes_iff_covers hsplits).mp ⟨passed, hpasses⟩⟩
  · rintro ⟨⟨before, name, after, hsplits, rfl⟩, hcovers⟩
    obtain ⟨passed, hpasses⟩ := (passes_iff_covers hsplits).mpr hcovers
    exact ⟨before, name, after, passed, hsplits, rfl, hpasses⟩

theorem IsToken.stop_le (h : IsToken text s) : s.stop ≤ text.length := by
  obtain ⟨before, name, after, ⟨rfl, -, -⟩, rfl⟩ := h
  have hafter : (if after.head? = some ';' then 1 else 0) ≤ after.length := by
    cases after with
    | nil => exact Nat.le_refl 0
    | cons first rest =>
      rw [List.length_cons]
      split <;> omega
  show before.length + 1 + name.length + _ ≤ _
  simp only [List.length_append, List.length_cons]
  omega

/-- From each of its characters, and from no other one, the search finds a reference. -/
theorem IsToken.before?_eq_some (h : IsToken text s) (hcovers : s.Covers offset) :
    before? text offset = some s := by
  have hoffset : min offset (text.length - 1) = offset := by
    have hlt : offset < text.length := Nat.lt_of_lt_of_le hcovers.2 h.stop_le
    omega
  exact before?_eq_some_iff.mpr ⟨h, hoffset.symm ▸ hcovers⟩

/-- References do not overlap. -/
theorem IsToken.eq_of_covers (hs : IsToken text s) (ht : IsToken text t) (hcs : s.Covers offset)
    (hct : t.Covers offset) : s = t := by
  have h := hs.before?_eq_some hcs
  rw [ht.before?_eq_some hct] at h
  exact (Option.some.inj h).symm

/-- The search around an offset finds the reference that covers the character there, or the last one
of the text if the offset is after it, and nothing only if there is no such reference.  At most one
reference covers a character, and the search finds it from each character that it covers. -/
theorem before?_finds_token (text : List Char) :
    (∀ offset s, before? text offset = some s ↔
      IsToken text s ∧ s.Covers (min offset (text.length - 1))) ∧
    (∀ offset, before? text offset = none ↔
      ∀ s, IsToken text s → ¬ s.Covers (min offset (text.length - 1))) ∧
    (∀ offset, before? [] offset = none) ∧
    (∀ s t i, IsToken text s → IsToken text t → s.Covers i → t.Covers i → s = t) ∧
    (∀ s, IsToken text s → ∀ offset, s.Covers offset → before? text offset = some s) := by
  have hnone : ∀ offset, before? text offset = none ↔
      ∀ s, IsToken text s → ¬ s.Covers (min offset (text.length - 1)) := by
    intro offset
    rw [Option.eq_none_iff_forall_ne_some]
    simp only [ne_eq, before?_eq_some_iff, not_and]
  refine ⟨fun offset s ↦ before?_eq_some_iff, hnone, fun _ ↦ rfl, ?_, ?_⟩
  · exact fun s t i hs ht hcs hct ↦ hs.eq_of_covers ht hcs hct
  · exact fun s hs offset hcovers ↦ hs.before?_eq_some hcovers

/-- A second ampersand breaks a reference off, and another reference begins with it. -/
theorem before?_finds_token_behind_ampersand :
    IsToken "&a&b;".toList ⟨2, 5⟩ ∧ before? "&a&b;".toList 4 = some ⟨2, 5⟩ ∧
      before? "&a&b;".toList 1 = some ⟨0, 2⟩ := by
  obtain ⟨hiff, -, -, -, hcovered⟩ := before?_finds_token "&a&b;".toList
  have hsecond : IsToken "&a&b;".toList ⟨2, 5⟩ :=
    ⟨['&', 'a'], ['b'], [';'], ⟨rfl, by decide, fun c hc ↦ by cases hc; decide⟩, rfl⟩
  have hfirst : IsToken "&a&b;".toList ⟨0, 2⟩ :=
    ⟨[], ['a'], ['&', 'b', ';'], ⟨rfl, by decide, fun c hc ↦ by cases hc; decide⟩, rfl⟩
  exact ⟨hsecond, hcovered _ hsecond 4 ⟨by decide, by decide⟩,
    (hiff 1 _).mpr ⟨hfirst, by decide, by decide⟩⟩

/-- Behind an ampersand a name has to begin. -/
example : before? "&;".toList 1 = none ∧ before? "&#1;".toList 3 = none := by
  decide +kernel

end Reference

end XmlDiagnostics.Markup
