/-!
# Sets of code points

Character properties are published as closed intervals of code points in ascending
order.  `Ranges` keeps that form, and `Ranges.contains` looks a code point up in it:
the search ends at the first interval that does not lie below the code point.
-/

namespace XmlDiagnostics.Text

/-- Closed intervals of code points, in ascending order and apart from each other. -/
abbrev Ranges := List (Nat × Nat)

namespace Ranges

/-- Whether `n` lies in one of the intervals. -/
def contains : Ranges → Nat → Bool
  | [], _ => false
  | (low, high) :: rest, n => if n ≤ high then low ≤ n else contains rest n

theorem exists_of_contains {ranges : Ranges} {n : Nat} (h : ranges.contains n = true) :
    ∃ r ∈ ranges, r.1 ≤ n ∧ n ≤ r.2 := by
  induction ranges with
  | nil => simp [contains] at h
  | cons r rest ih =>
    obtain ⟨low, high⟩ := r
    by_cases hn : n ≤ high
    · exact ⟨(low, high), by simp, by simpa [contains, hn] using h, hn⟩
    · obtain ⟨s, hs, hlow, hhigh⟩ := ih (by simpa [contains, hn] using h)
      exact ⟨s, by simp [hs], hlow, hhigh⟩

end Ranges

end XmlDiagnostics.Text
