/-!
# Whole numbers of the filter language

Whole numbers are exact and bounded: they fit a signed 64-bit word. `Integer` carries the bounds,
and `Integer.ofInt?` is the only way in, so a result that leaves the range is refused where it
arises and never wraps.

Numbers of all types are written positionally: digits, and a point where there is a fraction, never
an exponent.
-/

namespace DataFilter

/-- A whole number between `-2^63` and `2^63 - 1`. -/
structure Integer where
  /-- The number itself. -/
  toInt : Int
  /-- No smaller than the least signed 64-bit word. -/
  lower : -9223372036854775808 ≤ toInt
  /-- Below `2^63`. -/
  upper : toInt < 9223372036854775808
  deriving DecidableEq

namespace Integer

/-- The whole number `n`, if it is in range. -/
def ofInt? (n : Int) : Option Integer :=
  if h : -9223372036854775808 ≤ n ∧ n < 9223372036854775808 then some ⟨n, h.1, h.2⟩ else none

/-- The number whose signed 64-bit word has the low 64 bits of `n`. -/
def wrap (n : Int) : Integer :=
  ⟨n.bmod 18446744073709551616,
    by have := Int.le_bmod (x := n) (m := 18446744073709551616) (by decide); omega,
    by have := Int.bmod_lt (x := n) (m := 18446744073709551616) (by decide); omega⟩

/-- A small literal; one that is out of range stands for its low 64 bits. -/
instance (n : Nat) : OfNat Integer n := ⟨wrap n⟩

instance : Inhabited Integer := ⟨0⟩

@[ext]
theorem ext {a b : Integer} (h : a.toInt = b.toInt) : a = b := by
  cases a; cases b; cases h; rfl

theorem ofInt?_eq_some_iff {n : Int} {a : Integer} : ofInt? n = some a ↔ a.toInt = n := by
  constructor
  · intro h
    unfold ofInt? at h
    split at h
    · cases h; rfl
    · cases h
  · rintro rfl
    exact dif_pos ⟨a.lower, a.upper⟩

theorem ofInt?_eq_none_iff {n : Int} :
    ofInt? n = none ↔ ¬(-9223372036854775808 ≤ n ∧ n < 9223372036854775808) := by
  constructor
  · intro h hn
    simp only [ofInt?, dif_pos hn, reduceCtorEq] at h
  · intro h
    exact dif_neg h

/-- The order of the numbers. -/
def compare (a b : Integer) : Ordering := Ord.compare a.toInt b.toInt

/-- Decimal digits, with a minus sign in front of a negative number. -/
def render (a : Integer) : String := toString a.toInt

end Integer

/-! ## Plain decimal text -/

/-- The digits of `n`, filled up with zeros on the left to at least `width`. -/
def paddedDigits (width n : Nat) : String :=
  let digits := toString n
  "".pushn '0' (width - digits.length) ++ digits

/-- `coefficient / 10^scale`, with exactly `scale` digits after the point. -/
def plainText (coefficient scale : Nat) : String :=
  if scale = 0 then toString coefficient
  else
    let power := Nat.pow 10 scale
    toString (coefficient / power) ++ "." ++ paddedDigits scale (coefficient % power)

/-- The value of a run of decimal digits, the most significant first. -/
def digitsValue (digits : List Char) : Nat :=
  digits.foldl (fun n c => 10 * n + (c.toNat - '0'.toNat)) 0

end DataFilter
