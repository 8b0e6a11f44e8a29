import XmlDiagnostics.Decimal.Double

/-!
# The shortest decimal of a double

The real numbers that round to the double `m · 2 ^ q` form an interval around it.  The
shortest decimal of the double is the point of the coarsest grid of powers of ten that
meets the interval; if both neighbours of the double on that grid lie in the interval,
it is the nearer one, and the larger one if they are equally near.

All comparisons are made on integers: the ends of the interval are multiples of
`2 ^ (q - 2)`, and both sides are brought to a common denominator.
-/

namespace XmlDiagnostics.Decimal

/-- The number `digits · 10 ^ exponent`. -/
structure Scientific where
  /-- The digits, read as one number. -/
  digits : Nat
  /-- The power of ten that the last digit counts. -/
  exponent : Int
deriving DecidableEq, Repr

/-- The interval of the numbers that round to a double, in quarters of its last place. -/
structure Rounding where
  /-- The lower end. -/
  low : Nat
  /-- The double itself. -/
  value : Nat
  /-- The upper end. -/
  high : Nat
  /-- Whether the ends belong to the interval. -/
  closed : Bool
  /-- The exponent of two that one quarter stands for. -/
  exponent : Int
deriving DecidableEq, Repr

namespace Rounding

/-- The interval around `m · 2 ^ q`.  Below a power of two the doubles are twice as
dense, so the interval reaches only half as far down.  The ends round to the double
exactly if its mantissa is even. -/
def around (m : Nat) (q : Int) : Rounding where
  low := if m = leadingBit ∧ q ≠ leastExponent then 4 * m - 1 else 4 * m - 2
  value := 4 * m
  high := 4 * m + 2
  closed := m % 2 = 0
  exponent := q - 2

/-- The point of the interval on the grid of the multiples of `10 ^ e`, if there is
one: the nearer neighbour of the double, or its only neighbour in the interval. -/
def pointOn? (r : Rounding) (e : Int) : Option Nat :=
  let scale := (power 2 r.exponent).1 * (power 10 e).2
  let step := (power 2 r.exponent).2 * (power 10 e).1
  let below := r.value * scale / step
  let rest := r.value * scale % step
  let downFits := if r.closed then r.low * scale ≤ below * step else r.low * scale < below * step
  let upFits :=
    if r.closed then (below + 1) * step ≤ r.high * scale else (below + 1) * step < r.high * scale
  if downFits then
    if upFits ∧ step ≤ 2 * rest then some (below + 1) else some below
  else if upFits then some (below + 1) else none

/-- The point of the coarsest grid that meets the interval, from the grid of `10 ^ e`
on down.  After `steps` finer grids the exponent is at most `q` and at most zero, and
there the double is a point of the grid itself. -/
def coarsestFrom (r : Rounding) (e : Int) : Nat → Scientific
  | 0 => ⟨(r.pointOn? e).getD 0, e⟩
  | steps + 1 =>
    match r.pointOn? e with
    | some digits => ⟨digits, e⟩
    | none => r.coarsestFrom (e - 1) steps

end Rounding

/-- An exponent of ten whose power is larger than `m · 2 ^ q`: a bit is worth a little
less than 0.30103 digits. -/
def exponentAbove (m : Nat) (q : Int) : Int :=
  (q + Nat.log2 m + 1) * 30103 / 100000 + 1

/-- The shortest decimal of the positive double `m · 2 ^ q`. -/
def shortest (m : Nat) (q : Int) : Scientific :=
  let e := exponentAbove m q
  (Rounding.around m q).coarsestFrom e (e - min q 0).toNat

end XmlDiagnostics.Decimal
