/-!
# Numerals

Natural numbers written with ASCII digits.  `numeral?` reads one, with an optional plus
sign before it; `digits` writes one, and `numeral?_digits` says that it can be read back.
-/

namespace XmlDiagnostics.Text

/-- The number that an ASCII digit stands for. -/
def digitValue (c : Char) : Nat :=
  c.toNat - '0'.toNat

/-- The number that a hexadecimal digit stands for, in either case. -/
def hexValue? (c : Char) : Option Nat :=
  if c.isDigit then some (digitValue c)
  else if 'a' ≤ c ∧ c ≤ 'f' then some (c.toNat - 'a'.toNat + 10)
  else if 'A' ≤ c ∧ c ≤ 'F' then some (c.toNat - 'A'.toNat + 10)
  else none

/-- The number that a row of ASCII digits stands for. -/
def valueOfDigits (s : List Char) : Nat :=
  s.foldl (fun n c ↦ 10 * n + digitValue c) 0

/-- Reads a numeral that fills the whole text: at most one plus sign, then at least one
ASCII digit and nothing else. -/
def numeral? (s : List Char) : Option Nat :=
  let row := match s with
    | '+' :: rest => rest
    | _ => s
  if row ≠ [] ∧ row.all Char.isDigit then some (valueOfDigits row) else none

/-- The decimal digits of a natural number, without leading zeros. -/
def digits (n : Nat) : List Char :=
  Nat.toDigits 10 n

/-- The decimal digits of an integer, after a minus sign if it is negative. -/
def signedDigits (n : Int) : List Char :=
  if n < 0 then '-' :: digits n.natAbs else digits n.natAbs

theorem isDigit_of_mem_digits {n : Nat} {c : Char} (h : c ∈ digits n) : c.isDigit = true :=
  Nat.isDigit_of_mem_toDigits (by decide) (by decide) h

theorem valueOfDigits_digits (n : Nat) : valueOfDigits (digits n) = n :=
  Nat.ofDigitChars_eq_foldl.symm.trans Nat.ofDigitChars_ten_toDigits

/-- Digits without a sign are a numeral, whatever zeros they begin with. -/
theorem numeral?_of_forall_isDigit {row : List Char} (hne : row ≠ [])
    (h : ∀ c ∈ row, c.isDigit = true) : numeral? row = some (valueOfDigits row) := by
  cases row with
  | nil => exact absurd rfl hne
  | cons c rest =>
    have hplus : c ≠ '+' := by
      rintro rfl
      exact absurd (h '+' List.mem_cons_self) (by decide)
    have hall : (c :: rest).all Char.isDigit = true := List.all_eq_true.mpr h
    simp [numeral?, hplus, hall]

/-- Reading the digits of a number gives the number. -/
theorem numeral?_digits (n : Nat) : numeral? (digits n) = some n := by
  have hne : digits n ≠ [] := Nat.toDigits_ne_nil
  rw [numeral?_of_forall_isDigit hne fun _ h ↦ isDigit_of_mem_digits h, valueOfDigits_digits]

end XmlDiagnostics.Text
