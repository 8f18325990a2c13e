import DataFilter.Json
import DataFilter.Number.Integer

/-!
# Numbers in JSON text

A numeral is whole if it is written without a point and an exponent and fits 64 bits. Any other
numeral is binary: its digits are collected into a 64-bit significand as far as they fit, and the
significand is then scaled by the power of ten that is missing. Significand and scaling are rounded
apart, so a long numeral may differ from the nearest binary number in the last place. A numeral
beyond the binary format is refused.
-/

namespace DataFilter.Json

/-- A number as it is written. -/
structure Numeral where
  negative : Bool
  /-- The digits before the point. -/
  whole : List Char
  /-- The digits after the point; none without a point. -/
  fraction : List Char
  /-- Whether the exponent is negative, and its digits. -/
  exponent : Option (Bool × List Char)
  deriving DecidableEq

/-- The first number that does not fit 64 bits. -/
def wordLimit : Nat := 18446744073709551616

/-- Adds digits to a significand as long as it fits 64 bits, and counts them. -/
def collectDigits : Nat → List Char → Nat × Nat
  | significand, [] => (significand, 0)
  | significand, c :: rest =>
    let grown := significand * 10 + digitsValue [c]
    if grown < wordLimit then
      let (result, count) := collectDigits grown rest
      (result, count + 1)
    else (significand, 0)

/-- A power of ten as a binary number. -/
def powerOfTen (exponent : Nat) : Binary64 := .ofInt (Nat.pow 10 exponent)

/-- Divides by `10^exponent`, in steps of at most `10^308`, until nothing is left to divide. -/
def scaleDown : Nat → Binary64 → Nat → Binary64
  | 0, x, exponent => x.div (powerOfTen exponent)
  | steps + 1, x, exponent =>
    if exponent ≤ 308 then x.div (powerOfTen exponent)
    else if x.isZero then x
    else scaleDown steps (x.div (powerOfTen 308)) (exponent - 308)

/-- `significand * 10^exponent`, if it is finite. -/
def scale? (significand : Nat) (exponent : Int) : Option Binary64 :=
  let x := Binary64.ofInt significand
  if exponent < 0 then some (scaleDown (exponent.natAbs / 308) x exponent.natAbs)
  else if exponent ≤ 308 then
    let scaled := x.mul (powerOfTen exponent.toNat)
    if scaled.isFinite then some scaled else none
  else if x.isZero then some x
  else none

/-- The binary number of a numeral. An exponent that does not fit 32 bits makes zero, or something
too large. -/
def Numeral.binary? (numeral : Numeral) : Option Binary64 :=
  let (ofWhole, wholeCount) := collectDigits 0 numeral.whole
  let (significand, fractionCount) := collectDigits ofWhole numeral.fraction
  let unscaled : Int := (numeral.whole.length - wholeCount : Nat) - (fractionCount : Nat)
  let magnitude := match numeral.exponent with
    | none => scale? significand unscaled
    | some (negative, digits) =>
      let exponent := digitsValue digits
      if exponent < 2147483648 then
        scale? significand (if negative then unscaled - exponent else unscaled + exponent)
      else if significand = 0 ∨ negative then some (.zero false)
      else none
  magnitude.map fun x => if numeral.negative then x.neg else x

/-- Whether a numeral is written as a whole number. -/
def Numeral.isWhole (numeral : Numeral) : Bool :=
  numeral.fraction.isEmpty && numeral.exponent.isNone

/-- The number of a numeral. Negative zero is binary. -/
def Numeral.number? (numeral : Numeral) : Option JsonNumber :=
  let n := digitsValue numeral.whole
  if numeral.isWhole && !numeral.negative && n < wordLimit then some (.whole n)
  else if numeral.isWhole && numeral.negative && 0 < n && n ≤ 9223372036854775808 then
    some (.whole (-n))
  else numeral.binary?.map .binary

end DataFilter.Json
