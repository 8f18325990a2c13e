import DataFilter.Number.Binary64
import DataFilter.Number.Integer

/-!
# Whole numbers of the binary format

A binary number without a fraction is turned into a whole number if it lies between the limits. The
limits are compared in the binary format: the least whole number is there itself, the greatest one
is rounded up to `2^63`, which is out of range already, so it has to stay above. Beyond the limits
the conversion would give the nearest limit.
-/

namespace DataFilter

namespace Integer

/-- The least whole number. -/
def least : Integer := ⟨-9223372036854775808, by decide, by decide⟩

/-- The greatest whole number. -/
def greatest : Integer := ⟨9223372036854775807, by decide, by decide⟩

/-- The number `n`, or the limit that it lies beyond. -/
def clamp (n : Int) : Integer :=
  match ofInt? n with
  | some m => m
  | none => if n < 0 then least else greatest

end Integer

namespace Binary64

/-- The part before the point; beyond the range of whole numbers its limit, and zero for `nan`. -/
def clampToInteger : Binary64 → Integer
  | nan => 0
  | infinite negative => if negative then .least else .greatest
  | finite negative units _ => .clamp (signed negative (units / one))

/-- Whether a number lies between the limits of whole numbers, as the binary format has them: at
least the least one, and below what the greatest one is rounded up to. -/
def isBetweenLimits (x : Binary64) : Bool :=
  (x.compare? (.ofInt Integer.least.toInt)).any (·.isGE) &&
    (x.compare? (.ofInt Integer.greatest.toInt)).any (·.isLT)

/-- The whole number that a binary number is, if it is one in range. -/
def toInteger? (x : Binary64) : Option Integer :=
  if x.isWhole && x.isBetweenLimits then some x.clampToInteger else none

end Binary64

end DataFilter
