import DataFilter.Number.Decimal
import DataFilter.Number.LongRemainder

/-!
# Decimal arithmetic

Sums, differences and products are exact integer operations on coefficients brought to a common
scale, followed by `Decimal.fit?`. A remainder is exact for a divisor of up to 64 bits and goes
word by word beyond (`longRemainder`). A quotient may have no last decimal, so it is found by long
division, up to nine digits at a time, until the remainder is spent or no further decimal fits;
trailing zeros that the nine-digit steps brought in are then taken off again.
-/

namespace DataFilter.Decimal

/-- The coefficient that `d` has when it is written with `scale` decimals. -/
def rescaled (d : Decimal) (scale : Nat) : Nat := d.coefficient * Nat.pow 10 (scale - d.scale)

/-- The sum, at the larger of the two scales. A zero operand gives the other one as it is, and a
sum that cancels has no sign. -/
def add? (a b : Decimal) : Option Decimal :=
  if a.isZero then some b
  else if b.isZero then some a
  else
    let scale := max a.scale b.scale
    let m := a.rescaled scale
    let n := b.rescaled scale
    if a.negative = b.negative then fit? .toEven a.negative (m + n) scale
    else if n ≤ m then fit? .toEven a.negative (m - n) scale
    else fit? .toEven b.negative (n - m) scale

/-- The difference. Subtracting zero changes nothing, and `0 - 0` is the second zero. -/
def sub? (a b : Decimal) : Option Decimal := if b.isZero then add? a b else add? a b.neg

/-- Whether the coefficient is longer than one word. -/
def isLong (d : Decimal) : Bool := wordBase ≤ d.coefficient

/-- The product, with the decimals of both operands. A zero operand gives zero without decimals.
Two short coefficients with more than 47 decimals give it too, as their product is far below the
last decimal. A product that is rounded to zero has a sign only if an operand is long. -/
def mul? (a b : Decimal) : Option Decimal :=
  let long := a.isLong || b.isLong
  if a.isZero || b.isZero then some zero
  else if !long && 47 < a.scale + b.scale then some zero
  else
    let negative := a.negative != b.negative
    (fit? .toEven negative (a.coefficient * b.coefficient) (a.scale + b.scale)).map fun product =>
      if long then { product with negative := negative } else product

/-- The first coefficient of three words. -/
def threeWords : Nat := 18446744073709551616

/-- What is left of coefficient `m` after division by `n`. -/
def remainder (m n : Nat) : Nat := if n < threeWords then m % n else longRemainder m n

/-- What is left of `a` after taking away whole multiples of `b`, at the larger scale, with the
sign of `a` if anything is left. A smaller `a` is kept as it is. -/
def rem? (a b : Decimal) : Option Decimal :=
  let scale := max a.scale b.scale
  let m := a.rescaled scale
  let n := b.rescaled scale
  if n = 0 then none
  else if m = 0 || m = n then some zero
  else if m < n then some a
  else fit? .toEven a.negative (remainder m n) scale

/-! ## Division -/

/-- A quotient found so far: `digits / 10^decimals`, with `left` of the divisor still to divide. A
negative count of decimals asks for that many more digits before the point. -/
structure Division where
  digits : Nat
  decimals : Int
  left : Nat

/-- How many digits, at most nine, can be added to `digits` without leaving 96 bits or 28
decimals. -/
def roomFor (digits : Nat) (decimals : Int) : Nat :=
  ((List.range 10).filter fun (k : Nat) =>
    decimals + k ≤ 28 && digits * Nat.pow 10 k < coefficientLimit).foldl max 0

/-- Gives up the last decimal of a quotient that has outgrown 96 bits, rounding half to even, where
`moreLeft` tells whether an apparent half is more than a half. -/
def shorten? (digits : Nat) (decimals : Int) (moreLeft : Bool) : Option (Nat × Nat) :=
  if decimals ≤ 0 then none
  else
    let shorter := if moreLeft && digits % 10 = 5 then digits / 10 + 1
      else roundQuotient digits 10 .toEven
    some (shorter, (decimals - 1).toNat)

/-- Adds nothing more to a quotient but rounds it half to even on what is left. -/
def finish? (divisor : Nat) (q : Division) : Option (Nat × Nat) :=
  if q.decimals < 0 then none
  else
    let rounded := roundQuotient (q.digits * divisor + q.left) divisor .toEven
    if rounded < coefficientLimit then some (rounded, q.decimals.toNat)
    else shorten? rounded q.decimals true

/-- Long division by up to nine digits at a time. The answer tells whether it was ever inexact. A
quotient that outgrows 96 bits on the way gives up a decimal; for a divisor of three words
something always counts as left then. At most `steps` rounds are made; each but the last adds at
least one digit, so 60 are enough for 28 decimals on either side of the point. -/
def longDivision? (divisor : Nat) : Nat → Division → Bool → Option ((Nat × Nat) × Bool)
  | 0, _, _ => none
  | steps + 1, q, inexact =>
    if q.left = 0 && 0 ≤ q.decimals then some ((q.digits, q.decimals.toNat), inexact)
    else
      let more := if q.left = 0 then min 9 (-q.decimals).toNat else roomFor q.digits q.decimals
      if q.left ≠ 0 && (more = 0 || q.decimals = 28) then (finish? divisor q).map (·, true)
      else
        let grown := q.digits * Nat.pow 10 more
        let part := q.left * Nat.pow 10 more
        let digits := grown + part / divisor
        let decimals := q.decimals + more
        if coefficientLimit ≤ grown then none
        else if coefficientLimit ≤ digits then
          (shorten? digits decimals (part % divisor ≠ 0 || threeWords ≤ divisor)).map (·, true)
        else longDivision? divisor steps ⟨digits, decimals, part % divisor⟩
          (inexact || q.left ≠ 0)

/-- Takes off `count` trailing zeros, if there are so many and the scale allows. -/
def dropZeros (count : Nat) (q : Nat × Nat) : Nat × Nat :=
  if count ≤ q.2 && q.1 % Nat.pow 10 count = 0 then (q.1 / Nat.pow 10 count, q.2 - count) else q

/-- Takes off trailing zeros in groups: eights as long as the low 32 bits are clear, then four, two
and one, each tried once and only where the low bits do not rule it out. -/
def dropZeroGroups (q : Nat × Nat) : Nat × Nat :=
  let eights := (List.range 3).foldl
    (fun q _ => if q.1 % wordBase = 0 then dropZeros 8 q else q) q
  [(4, 16), (2, 4), (1, 2)].foldl (fun q (group : Nat × Nat) =>
    if q.1 % group.2 = 0 then dropZeros group.1 q else q) eights

/-- The quotient by a divisor that is not zero. -/
def div? (a b : Decimal) : Option Decimal :=
  if b.isZero then none
  else if a.isZero then some zero
  else do
    let first : Division := ⟨a.coefficient / b.coefficient, (a.scale : Int) - b.scale,
      a.coefficient % b.coefficient⟩
    let (quotient, inexact) ← longDivision? b.coefficient 60 first false
    let (digits, decimals) := if inexact then dropZeroGroups quotient else quotient
    ofParts? ((a.negative != b.negative) && digits != 0) digits decimals

end DataFilter.Decimal
