import DataFilter.Number.Integer

/-!
# Spans of time

A duration is a signed count of nanoseconds. Sums and differences stay within `2^63 - 1`
milliseconds either way. A product is only asked to keep its seconds in 64 bits, so the type
itself reaches that far.
-/

namespace DataFilter

/-- Nanoseconds in a second. -/
def second : Nat := 1000000000

/-- The limit of a span: `2^63 - 1` seconds. -/
def spanLimit : Int := 9223372036854775807000000000

/-- A signed span of time. -/
structure Duration where
  nanoseconds : Int
  lower : -spanLimit ≤ nanoseconds
  upper : nanoseconds ≤ spanLimit
  deriving DecidableEq

namespace Duration

/-- The longest sum of durations: `2^63 - 1` milliseconds. -/
def longest : Int := 9223372036854775807000000

/-- The span of so many nanoseconds, if it is no longer than a sum may be. -/
def ofNanoseconds? (n : Int) : Option Duration :=
  if h : -longest ≤ n ∧ n ≤ longest then
    some ⟨n, by have := h.1; simp only [longest] at this; unfold spanLimit; omega,
      by have := h.2; simp only [longest] at this; unfold spanLimit; omega⟩
  else none

instance : Inhabited Duration := ⟨⟨0, by decide, by decide⟩⟩

def compare (a b : Duration) : Ordering := Ord.compare a.nanoseconds b.nanoseconds

def neg (a : Duration) : Duration :=
  ⟨-a.nanoseconds, by have := a.upper; omega, by have := a.lower; omega⟩

/-- A count of nanoseconds with its seconds reduced to a 64-bit word. -/
def wrapSeconds (n : Int) : Int := n.bmod 18446744073709551616000000000

/-- The sum, with the seconds added in a 64-bit word. -/
def add? (a b : Duration) : Option Duration :=
  ofNanoseconds? (wrapSeconds (a.nanoseconds + b.nanoseconds))

/-- The difference, with the seconds subtracted in a 64-bit word. -/
def sub? (a b : Duration) : Option Duration :=
  ofNanoseconds? (wrapSeconds (a.nanoseconds - b.nanoseconds))

/-- The product with a whole number, as long as its seconds stay strictly inside a 64-bit word. -/
def mul? (a : Duration) (factor : Int) : Option Duration :=
  let product := a.nanoseconds * factor
  if h : -spanLimit ≤ product ∧ product < spanLimit then
    some ⟨product, h.1, by have := h.2; omega⟩
  else none

/-- The quotient by a whole number other than zero. Whole seconds and the nanoseconds beyond them
are divided apart, each toward zero. -/
def quotient (a : Duration) (divisor : Int) : Int :=
  let seconds := a.nanoseconds / second
  let beyond := a.nanoseconds % second
  seconds.tdiv divisor * second + beyond.tdiv divisor + (seconds.tmod divisor * second).tdiv divisor

/-- The quotient by a whole number other than zero, as a duration. -/
def div? (a : Duration) (divisor : Int) : Option Duration :=
  let n := a.quotient divisor
  if h : -spanLimit ≤ n ∧ n ≤ spanLimit then some ⟨n, h.1, h.2⟩ else none

/-- The decimals of a second, without the zeros at the end. -/
def fractionText (nanoseconds : Nat) : String :=
  String.ofList ((paddedDigits 9 nanoseconds).toList.reverse.dropWhile (· = '0')).reverse

/-- `P0D` for nothing, else the seconds with as many decimals as needed, as in `-PT1.5S`. -/
def render (a : Duration) : String :=
  let size := a.nanoseconds.natAbs
  let sign := if a.nanoseconds < 0 then "-" else ""
  if size = 0 then "P0D"
  else
    let fraction := fractionText (size % second)
    sign ++ "PT" ++ toString (size / second) ++
      (if fraction.isEmpty then "" else "." ++ fraction) ++ "S"

end Duration

end DataFilter
