/-!
# Machine words

Which whole numbers a word of a given number of bits can hold.  A word of 32 bits with a sign is
an `Int32`; the word for a number, if there is one, is the word that stands for it
(`ofInt?_eq_some_iff`).
-/

namespace XmlDiagnostics.Word

/-- The whole number that a word stands for. -/
instance instCoeInt32 : Coe Int32 Int := ⟨Int32.toInt⟩

/-- The word for a whole number, which wraps around if the word cannot hold it. -/
instance instIntCastInt32 : IntCast Int32 := ⟨Int32.ofInt⟩

/-- The number of values of a word of `bits` bits. -/
def count (bits : Nat) : Nat :=
  Nat.pow 2 bits

/-- Whether a word of `bits` bits with a sign can hold a number. -/
def fitsSigned (bits : Nat) (n : Int) : Bool :=
  -(count (bits - 1) : Int) ≤ n && n < count (bits - 1)

/-- Whether a word of `bits` bits without a sign can hold a number. -/
def fitsUnsigned (bits : Nat) (n : Int) : Bool :=
  0 ≤ n && n < count bits

/-- The word of 32 bits with a sign for a whole number, if it can hold the number. -/
def ofInt? (n : Int) : Option Int32 :=
  if fitsSigned 32 n then some n else none

theorem fitsSigned_iff {bits : Nat} {n : Int} :
    fitsSigned bits n = true ↔ -(count (bits - 1) : Int) ≤ n ∧ n < count (bits - 1) := by
  simp [fitsSigned]

/-- A word stands for a number that it can hold. -/
theorem fitsSigned_toInt (word : Int32) : fitsSigned 32 word.toInt = true :=
  fitsSigned_iff.mpr ⟨word.le_toInt, word.toInt_lt⟩

theorem ofInt?_eq_some_iff {n : Int} {word : Int32} : ofInt? n = some word ↔ word.toInt = n := by
  rw [ofInt?]
  split
  · rename_i hfits
    obtain ⟨hlow, hhigh⟩ := fitsSigned_iff.mp hfits
    have hback : (n : Int32).toInt = n := Int32.toInt_ofInt_of_le hlow hhigh
    rw [Option.some.injEq, ← Int32.toInt_inj, hback]
    exact eq_comm
  · rename_i hfits
    refine iff_of_false (by simp) ?_
    rintro rfl
    exact hfits (fitsSigned_toInt word)

end XmlDiagnostics.Word
