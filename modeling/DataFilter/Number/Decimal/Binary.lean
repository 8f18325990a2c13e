import DataFilter.Number.Binary64
import DataFilter.Number.Decimal

/-!
# Between binary and decimal

`Decimal.ofBinary64?` turns a binary number into a decimal of about sixteen digits: the exact power
of two is traded for powers of five and ten, at first without loss, and the digits beyond the
precision of the binary format are rounded away. `Decimal.toBinary64` divides the other way and
rounds the quotient back to as many decimals as the decimal has.
-/

namespace DataFilter.Decimal

/-- An unsigned number on the way from binary to decimal: `mantissa * 5^five * 10^ten`, where
`five` is still to be worked into the other two. -/
structure Conversion where
  mantissa : Nat
  ten : Int

/-- Works in one factor of five and, by halving where the mantissa is even or too long, keeps the
mantissa below 96 bits. -/
def Conversion.timesFive (c : Conversion) : Conversion :=
  if c.mantissa % 2 = 0 then ⟨c.mantissa / 2, c.ten + 1⟩
  else if c.mantissa * 5 < coefficientLimit then ⟨c.mantissa * 5, c.ten⟩
  else ⟨c.mantissa / 2, c.ten + 1⟩

/-- Takes out `count` factors of five: each is a doubling and a tenth, or a plain division once the
mantissa is full. No answer when the number is far too large. -/
def Conversion.overFives? : Nat → Conversion → Option Conversion
  | 0, c => some c
  | count + 1, c =>
    if c.mantissa * 2 < coefficientLimit then overFives? count ⟨c.mantissa * 2, c.ten - 1⟩
    else if (count : Int) + 1 < 2 * c.ten then none
    else overFives? count ⟨c.mantissa / 5, c.ten⟩

/-- Multiplies `count` times by ten, within 96 bits. -/
def timesTen? (mantissa count : Nat) : Option Nat :=
  let result := mantissa * Nat.pow 10 count
  if result < coefficientLimit then some result else none

/-- The mantissa divided by ten, a half rounded up. -/
def tenthUp (mantissa : Nat) : Nat := roundQuotient mantissa 10 .up

/-- Brings the number to 28 decimals, one at a time; a mantissa that vanishes is plain zero. -/
def Conversion.toScale28 : Nat → Conversion → Conversion
  | 0, c => c
  | count + 1, c =>
    if c.mantissa / 10 = 0 then ⟨0, 0⟩
    else toScale28 count ⟨tenthUp c.mantissa, c.ten + 1⟩

/-- Rounds away decimals while the mantissa is longer than the 52 bits below the leading one. -/
def toDouble : Nat → Nat → Nat × Nat
  | mantissa, 0 => (mantissa, 0)
  | mantissa, scale + 1 =>
    if 4503599627370496 ≤ mantissa then toDouble (tenthUp mantissa) scale else (mantissa, scale + 1)

/-- Takes off trailing zeros. -/
def stripZeros : Nat → Nat → Nat × Nat
  | mantissa, 0 => (mantissa, 0)
  | mantissa, scale + 1 =>
    if mantissa % 10 = 0 then stripZeros (mantissa / 10) scale else (mantissa, scale + 1)

/-- A positive magnitude, in units of the binary format, as a coefficient and a scale. -/
def ofMagnitude? (units : Nat) : Option (Nat × Nat) := do
  let gap := magnitudeGap units
  let two : Int := gap.log2 - 1074
  let start : Conversion := ⟨units / gap, two⟩
  let fives := Nat.repeat Conversion.timesFive (-two).toNat start
  let spread ← Conversion.overFives? two.toNat fives
  let whole ← timesTen? spread.mantissa spread.ten.toNat
  let scaled := Conversion.toScale28 (-28 - spread.ten).toNat ⟨whole, min spread.ten 0⟩
  let (mantissa, scale) := toDouble scaled.mantissa (-scaled.ten).toNat
  pure (stripZeros mantissa scale)

/-- The decimal of a binary number. None for infinities, for `nan` and beyond the decimal range;
zero keeps its sign. -/
def ofBinary64? : Binary64 → Option Decimal
  | .nan => none
  | .infinite _ => none
  | .finite negative units _ =>
    if units = 0 then ofParts? negative 0 0
    else do
      let (coefficient, scale) ← ofMagnitude? units
      ofParts? negative coefficient scale

/-- The binary number of a decimal. Without a fraction it is the nearest to the whole part. With
one, whole part and fraction are converted apart and their sum is rounded to the decimal's scale. -/
def toBinary64 (d : Decimal) : Binary64 :=
  if d.scale = 0 then Binary64.ofInt d.signed
  else
    let power := Binary64.ofInt (Nat.pow 10 d.scale)
    let whole := Binary64.ofInt (d.coefficient / Nat.pow 10 d.scale)
    let fraction := (Binary64.ofInt (d.coefficient % Nat.pow 10 d.scale)).div power
    let magnitude :=
      if fraction.isZero then whole
      else (((whole.add fraction).mul power).round).div power
    if d.negative then magnitude.neg else magnitude

end DataFilter.Decimal
