import DataFilter.Number.Binary64.Shortest
import DataFilter.Number.Integer

/-!
# Text of a binary number

Binary numbers are written with the fewest digits that read back, positionally, whatever their
size; of two equally near choices the larger is written. Decimal text is read with one rounding.
-/

namespace DataFilter.Binary64

/-- The text of `c * 10^(k - 1074)`, given as `(c, k)`. It has a point where digits stand behind it. -/
def gridText (found : Nat × Nat) : String :=
  if 1074 ≤ found.2 then toString (found.1 * Nat.pow 10 (found.2 - 1074))
  else plainText found.1 (1074 - found.2)

/-- The text of a magnitude. A whole number has no point. -/
def magnitudeText (units : Nat) : String :=
  if units = 0 then "0" else gridText (shortest units .up)

/-- The text of a number: a sign in front of every negative number, zero included. -/
def render : Binary64 → String
  | nan => "NaN"
  | infinite false => "inf"
  | infinite true => "-inf"
  | finite false units _ => magnitudeText units
  | finite true units _ => "-" ++ magnitudeText units

/-- The number nearest to `coefficient * 10^exponent`. Far outside the format the answer is known
without the power of ten. -/
def ofDecimal (negative : Bool) (coefficient : Nat) (exponent : Int) : Binary64 :=
  if coefficient = 0 then zero negative
  else if 400 < exponent then infinite negative
  else if exponent < -(400 + coefficient.log2 : Nat) then zero negative
  else if 0 ≤ exponent then ofQuotient negative (coefficient * Nat.pow 10 exponent.toNat * one) 1
  else ofQuotient negative (coefficient * one) (Nat.pow 10 (-exponent).toNat)

end DataFilter.Binary64
