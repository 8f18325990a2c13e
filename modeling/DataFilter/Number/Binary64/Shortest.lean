import DataFilter.Number.Binary64

/-!
# The shortest digits of a binary number

Many decimal numbers round to the same binary one: those between the two halfway points to its
neighbours. `Binary64.shortest` looks for the coarsest decimal grid that has a point among them, and
takes the point nearest to the number. A coarser grid means fewer digits, so the result has the
fewest digits that read back, and among those it is the closest.

Everything is counted in `10^-1074`, in which every finite number is an integer: the search ends at
the finest grid at the latest, where the number itself is a point.
-/

namespace DataFilter.Binary64

/-- A unit, counted in `10^-1074`. -/
def unitOnDecimalGrid : Nat := Nat.pow 5 1074

/-- The distance from a magnitude to the next smaller one: half a gap below a power of two. -/
def gapBelow (units : Nat) : Nat :=
  let gap := magnitudeGap units
  if units = Nat.pow 2 units.log2 ∧ 1 < gap then gap / 2 else gap

/-- Whether a decimal number, in `10^-1074`, rounds to the magnitude `units`: it lies between the
halfway points to both neighbours, and on one of them only if the significand is even. -/
def readsBack (units decimal : Nat) : Bool :=
  let lower := (2 * units - gapBelow units) * unitOnDecimalGrid
  let upper := (2 * units + magnitudeGap units) * unitOnDecimalGrid
  if units / magnitudeGap units % 2 = 0 then lower ≤ 2 * decimal ∧ 2 * decimal ≤ upper
  else lower < 2 * decimal ∧ 2 * decimal < upper

/-- The multiple of `step` nearest to `exact` that passes a test. Only the two multiples around it can
be nearest. -/
def nearestMultiple (test : Nat → Bool) (exact step : Nat) (tie : Tie) : Option Nat :=
  let below := exact / step
  let above := below + 1
  match below ≠ 0 && test (below * step), test (above * step) with
  | false, false => none
  | true, false => some below
  | false, true => some above
  | true, true => some (roundQuotient exact step tie)

/-- The multiple of `10^grid` nearest to a magnitude among those that read back as it. -/
def nearestOnGrid (units grid : Nat) (tie : Tie) : Option Nat :=
  nearestMultiple (readsBack units) (units * unitOnDecimalGrid) (Nat.pow 10 grid) tie

/-- The coarsest grid, not coarser than the given one, on which a point is found, with that point. On
the grid of step one it is `finest`. -/
def coarsestGrid (find : Nat → Option Nat) (finest : Nat) : Nat → Nat × Nat
  | 0 => (finest, 0)
  | grid + 1 =>
    match find (grid + 1) with
    | some coefficient => (coefficient, grid + 1)
    | none => coarsestGrid find finest grid

/-- The shortest decimal number that rounds to a magnitude, as `(c, k)` for `c * 10^(k - 1074)`.
Of two such numbers equally near to it `tie` chooses. -/
def shortest (units : Nat) (tie : Tie) : Nat × Nat :=
  let exact := units * unitOnDecimalGrid
  coarsestGrid (nearestOnGrid units · tie) exact (exact.log2 / 3 + 1)

end DataFilter.Binary64
