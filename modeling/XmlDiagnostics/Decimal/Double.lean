import XmlDiagnostics.Word

/-!
# Double-precision numbers as fractions

A double is NaN, an infinity, or `± m · 2 ^ q` with natural `m` and integral `q`.
`Double.ofFloat` decodes the sixty-four bits into that form, and `nearest` finds the
double closest to a positive fraction, with ties to the even mantissa.
-/

namespace XmlDiagnostics.Decimal

/-- The value of a double. -/
inductive Double where
  /-- Not a number. -/
  | nan
  /-- An infinity. -/
  | infinity (negative : Bool)
  /-- The number `± mantissa · 2 ^ exponent`; the sign matters at zero too. -/
  | finite (negative : Bool) (mantissa : Nat) (exponent : Int)
deriving DecidableEq, Repr

/-- The exponent of the last place of the smallest doubles. -/
def leastExponent : Int := -1074

/-- The mantissa of a double that is not subnormal has its leading bit here. -/
def leadingBit : Nat := Word.count 52

/-- The bits of the positive infinity: an exponent of ones and a mantissa of zeros. -/
def infinityBits : Nat := 2047 * Word.count 52

/-- The bits of a number that is not one: as for infinity, with a bit in the mantissa. -/
def nanBits : Nat := 4095 * Word.count 51

/-- The floating-point number with given bits below the sign. -/
def signed (negative : Bool) (bits : Nat) : Float :=
  Float.ofBits (UInt64.ofNat (if negative then Word.count 63 + bits else bits))

namespace Double

/-- Reads the sign, the eleven bits of the exponent and the fifty-two of the mantissa. -/
def ofBits (bits : Nat) : Double :=
  let negative := decide (Word.count 63 ≤ bits)
  let biased := bits / Word.count 52 % Word.count 11
  let fraction := bits % Word.count 52
  if biased = 2047 then
    if fraction = 0 then .infinity negative else .nan
  else if biased = 0 then .finite negative fraction leastExponent
  else .finite negative (leadingBit + fraction) (leastExponent + (biased - 1 : Nat))

/-- The value of a floating-point number. -/
def ofFloat (x : Float) : Double :=
  ofBits x.toBits.toNat

end Double

/-- The power `base ^ q` as a numerator and a denominator. -/
def power (base : Nat) (q : Int) : Nat × Nat :=
  (Nat.pow base q.toNat, Nat.pow base (-q).toNat)

/-- The bits of the double nearest to the fraction `num / den` of positive numbers, or
`none` if it lies beyond the largest double.

The exponent is the one at which the quotient has fifty-three bits, or the least one.  A
mantissa that is rounded up to fifty-four bits carries over into the exponent. -/
def nearestBits? (num den : Nat) : Option Nat :=
  let floorAt (q : Int) : Nat := num * (power 2 q).2 / (den * (power 2 q).1)
  let guess : Int := (Nat.log2 num : Int) - Nat.log2 den - 52
  let exponent := max leastExponent (if floorAt guess < leadingBit then guess - 1 else guess)
  let n := num * (power 2 exponent).2
  let d := den * (power 2 exponent).1
  let below := n / d
  let mantissa := if 2 * (n % d) < d ∨ (2 * (n % d) = d ∧ below % 2 = 0) then below else below + 1
  let bits :=
    if mantissa < leadingBit then mantissa
    else (exponent - leastExponent + 1).toNat * Word.count 52 + (mantissa - leadingBit)
  if bits < infinityBits then some bits else none

/-- The double nearest to `± digits · 10 ^ exponent`, or `none` if it lies beyond the
largest double.  Numbers of more than 310 places before the point are beyond it, and
numbers with more than 330 zeros after the point are nearest to zero. -/
def nearest? (negative : Bool) (digits : Nat) (exponent : Int) : Option Float :=
  let places : Int := (Nat.toDigits 10 digits).length + exponent
  let magnitude : Option Nat :=
    if digits = 0 ∨ places < -330 then some 0
    else if places > 310 then none
    else nearestBits? (digits * (power 10 exponent).1) (power 10 exponent).2
  magnitude.map (signed negative)

end XmlDiagnostics.Decimal
