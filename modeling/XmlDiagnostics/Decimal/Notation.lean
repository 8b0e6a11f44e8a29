import XmlDiagnostics.Decimal.Shortest
import XmlDiagnostics.Text.Numeral

/-!
# Doubles in positional notation

A double is written with the fewest digits that read back, in positional notation
whatever its size: without an exponent, without a point if it is whole, and with a minus
sign also at negative zero.
-/

namespace XmlDiagnostics.Decimal

/-- A decimal in positional notation. -/
def Scientific.positional (s : Scientific) : List Char :=
  let row := Text.digits s.digits
  if 0 ≤ s.exponent then row ++ List.replicate s.exponent.toNat '0'
  else
    let places := (-s.exponent).toNat
    let padded := List.replicate (places + 1 - row.length) '0' ++ row
    padded.take (padded.length - places) ++ '.' :: padded.drop (padded.length - places)

/-- The text of a double. -/
def Double.text : Double → List Char
  | .nan => "NaN".toList
  | .infinity negative => (if negative then "-inf" else "inf").toList
  | .finite negative m q =>
    (if negative then ['-'] else []) ++ if m = 0 then ['0'] else (shortest m q).positional

end XmlDiagnostics.Decimal
