import DataFilter.Number.Integer
import DataFilter.Number.Rounding

/-!
# Exact decimals

A decimal is a signed coefficient below `2^96` and a scale of at most 28: it stands for
`coefficient / 10^scale`. The scale is kept, so `1.50` and `1.5` are equal but written differently.
What does not fit gives up decimals (`Decimal.fit?`), with a half rounded to even in a result and
away from zero in text that is read, and is refused when giving up all of them is not enough.
-/

namespace DataFilter

/-- The first coefficient that does not fit: `2^96`. -/
def coefficientLimit : Nat := 79228162514264337593543950336

/-- A decimal number `± coefficient / 10^scale`. -/
structure Decimal where
  negative : Bool
  coefficient : Nat
  scale : Nat
  coefficient_lt : coefficient < coefficientLimit
  scale_le : scale ≤ 28
  deriving DecidableEq

namespace Decimal

/-- The decimal with these parts, if they fit. -/
def ofParts? (negative : Bool) (coefficient scale : Nat) : Option Decimal :=
  if h : coefficient < coefficientLimit ∧ scale ≤ 28 then
    some ⟨negative, coefficient, scale, h.1, h.2⟩
  else none

/-- The decimal with these parts where they fit after dropping decimals, as few as possible, with
the last one kept rounded to the nearest. A zero found so has no sign. -/
def fit? (tie : Tie) (negative : Bool) (coefficient scale : Nat) : Option Decimal :=
  (List.range (scale + 1)).findSome? fun dropped =>
    let kept := roundQuotient coefficient (Nat.pow 10 dropped) tie
    ofParts? (negative && kept != 0) kept (scale - dropped)

/-- Zero without decimals. -/
def zero : Decimal := ⟨false, 0, 0, by decide, by decide⟩

instance : Inhabited Decimal := ⟨zero⟩

/-- A whole number as a decimal. -/
def ofInteger (n : Integer) : Decimal :=
  ⟨n.toInt < 0, n.toInt.natAbs, 0,
    by have := n.lower; have := n.upper; unfold coefficientLimit; omega, by decide⟩

/-- The signed coefficient. -/
def signed (d : Decimal) : Int := if d.negative then -d.coefficient else d.coefficient

def isZero (d : Decimal) : Bool := d.coefficient = 0

/-- Whether the fraction is zero, written or not. -/
def isWhole (d : Decimal) : Bool := d.coefficient % Nat.pow 10 d.scale = 0

/-- The part before the point as a whole number, if it is in range. -/
def truncate? (d : Decimal) : Option Integer := Integer.ofInt? (d.signed.tdiv (Nat.pow 10 d.scale))

/-- The order of the values; the scales do not matter. -/
def compare (a b : Decimal) : Ordering :=
  Ord.compare (a.signed * Nat.pow 10 b.scale) (b.signed * Nat.pow 10 a.scale)

/-- The same number with the other sign; zero too has two signs. -/
def neg (d : Decimal) : Decimal := { d with negative := !d.negative }

/-- Plain digits with as many decimals as the scale says, after the sign if there is one; a
negated zero shows it too. -/
def render (d : Decimal) : String :=
  (if d.negative then "-" else "") ++ plainText d.coefficient d.scale

/-- Reads plain decimal text: an optional minus sign, digits, and optionally a point and more
digits. Excess decimals are rounded away. -/
def ofText? (text : String) : Option Decimal :=
  let (negative, digits) := match text.toList with
    | '-' :: rest => (true, rest)
    | all => (false, all)
  let whole := digits.takeWhile Char.isDigit
  match digits.dropWhile Char.isDigit with
  | [] => if whole.isEmpty then none else fit? .up negative (digitsValue whole) 0
  | '.' :: fraction =>
    if whole.isEmpty || fraction.isEmpty || !fraction.all Char.isDigit then none
    else fit? .up negative (digitsValue (whole ++ fraction)) fraction.length
  | _ => none

end Decimal

end DataFilter
