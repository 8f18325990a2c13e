import DataFilter.Number.Rounding

/-!
# Binary floating point

`Binary64` is the 64-bit binary format: not a number, two infinities, and finite numbers with a
sign. All finite magnitudes lie on one grid, the multiples of `2^-1074`, so a magnitude is counted
in *units* of that size. Sums, products and comparisons are then sums, products and comparisons of
natural numbers, and each inexact operation is the exact one followed by one rounding,
`Binary64.ofQuotient`: to the nearest magnitude of at most 53 significant bits, ties to even.

Nothing here goes through machine floating point, so every operation unfolds to integer arithmetic.
-/

namespace DataFilter

/-- The first count of units beyond the format. -/
def magnitudeLimit : Nat := Nat.pow 2 2098

/-- A count of units that the format can hold: 53 significant bits, and below the limit. -/
def IsMagnitude (units : Nat) : Prop :=
  ∃ significand exponent, significand < 9007199254740992 ∧ exponent ≤ 2045 ∧
    units = significand * Nat.pow 2 exponent

/-- The distance from a magnitude to the next larger one. -/
def magnitudeGap (units : Nat) : Nat := Nat.pow 2 (units.log2 - 52)

/-- The 53-bit magnitude nearest to `num / den` units, ties to even, without an upper limit. -/
def roundUnits (num den : Nat) : Nat :=
  let gap := magnitudeGap (num / den)
  roundQuotient num (den * gap) .toEven * gap

theorem isMagnitude_zero : IsMagnitude 0 := ⟨0, 0, by decide, by decide, rfl⟩

/-- Rounding gives a magnitude of the format, if the result has no more bits than the format. -/
theorem isMagnitude_roundUnits_of_bits {num den bits : Nat} (hbits : bits ≤ 2098)
    (h : roundUnits num den < Nat.pow 2 bits) : IsMagnitude (roundUnits num den) := by
  simp only [roundUnits, magnitudeGap, IsMagnitude, Nat.pow_eq] at h ⊢
  generalize hq : num / den = q at h ⊢
  generalize hs : q.log2 - 52 = s at h ⊢
  generalize hk : roundQuotient num (den * 2 ^ s) .toEven = k at h ⊢
  have hk_le : k ≤ q / 2 ^ s + 1 := by
    have := roundQuotient_le num (den * 2 ^ s) .toEven
    rw [hk, ← Nat.div_div_eq_div_mul, hq] at this
    exact this
  have hk_ge : q / 2 ^ s ≤ k := by
    have := div_le_roundQuotient num (den * 2 ^ s) .toEven
    rw [hk, ← Nat.div_div_eq_div_mul, hq] at this
    exact this
  have hq_lt : q / 2 ^ s < 2 ^ 53 := by
    rw [Nat.div_lt_iff_lt_mul (Nat.two_pow_pos s), ← Nat.pow_add]
    exact Nat.lt_of_lt_of_le Nat.lt_log2_self (Nat.pow_le_pow_right (by decide) (by omega))
  have hs_le : s ≤ 2045 := by
    rcases Nat.eq_zero_or_pos s with h0 | hpos
    · omega
    · have hq0 : q ≠ 0 := by
        rintro rfl
        simp at hs
        omega
      have h52 : 2 ^ 52 ≤ q / 2 ^ s := by
        rw [Nat.le_div_iff_mul_le (Nat.two_pow_pos s), ← Nat.pow_add]
        have : 52 + s = q.log2 := by omega
        rw [this]
        exact Nat.log2_self_le hq0
      have hpow : 2 ^ (52 + s) < 2 ^ bits := by
        rw [Nat.pow_add]
        exact Nat.lt_of_le_of_lt (Nat.mul_le_mul_right _ (Nat.le_trans h52 hk_ge)) h
      have hexp := (Nat.pow_lt_pow_iff_right (by decide : 1 < 2)).1 hpow
      omega
  rcases Nat.lt_or_ge k (2 ^ 53) with hlt | hge
  · exact ⟨k, s, hlt, hs_le, rfl⟩
  · have hk53 : k = 2 ^ 53 := by omega
    subst hk53
    refine ⟨2 ^ 52, s + 1, by decide, ?_, by rw [Nat.pow_succ']; omega⟩
    have hpow : 2 ^ (53 + s) < 2 ^ bits := by rw [Nat.pow_add]; exact h
    have hexp := (Nat.pow_lt_pow_iff_right (by decide : 1 < 2)).1 hpow
    omega

/-- Rounding gives a magnitude of the format, unless it reaches the limit. -/
theorem isMagnitude_roundUnits {num den : Nat} (h : roundUnits num den < magnitudeLimit) :
    IsMagnitude (roundUnits num den) := by
  unfold magnitudeLimit at h
  generalize hb : 2098 = bits at h
  exact isMagnitude_roundUnits_of_bits (Nat.le_of_eq hb.symm) h

/-- A number of the 64-bit binary format. Zero has a sign. -/
inductive Binary64 where
  /-- Not a number. -/
  | nan
  /-- Beyond every finite number. -/
  | infinite (negative : Bool)
  /-- `units * 2^-1074`, with its sign. -/
  | finite (negative : Bool) (units : Nat) (isMagnitude : IsMagnitude units)
  deriving DecidableEq

namespace Binary64

instance : Inhabited Binary64 := ⟨nan⟩

/-- How many units make one. -/
def one : Nat := Nat.pow 2 1074

/-- Zero with the given sign. -/
def zero (negative : Bool) : Binary64 := finite negative 0 isMagnitude_zero

/-- The number nearest to `num / den` units with the given sign; infinite beyond the format. -/
def ofQuotient (negative : Bool) (num den : Nat) : Binary64 :=
  if h : roundUnits num den < magnitudeLimit then
    finite negative (roundUnits num den) (isMagnitude_roundUnits h)
  else infinite negative

/-- The number nearest to an integer; zero is positive. -/
def ofInt (n : Int) : Binary64 := ofQuotient (n < 0) (n.natAbs * one) 1

/-- The number nearest to a signed count of units; zero takes the given sign. -/
def ofUnits (units : Int) (zeroNegative : Bool) : Binary64 :=
  if units = 0 then zero zeroNegative else ofQuotient (units < 0) units.natAbs 1

/-- A magnitude with its sign, in units. -/
def signed (negative : Bool) (units : Nat) : Int := if negative then -units else units

/-! ## Questions -/

def isFinite : Binary64 → Bool
  | finite .. => true
  | _ => false

/-- Zero of either sign. -/
def isZero : Binary64 → Bool
  | finite _ units _ => units = 0
  | _ => false

/-- Finite and without a fractional part. -/
def isWhole : Binary64 → Bool
  | finite _ units _ => units % one = 0
  | _ => false

/-- The integer that a whole number is. -/
def toInt? : Binary64 → Option Int
  | finite negative units _ =>
    if units % one = 0 then some (signed negative (units / one)) else none
  | _ => none

/-- The order of the numbers; nothing is comparable with `nan`, and the two zeros are equal. -/
def compare? : Binary64 → Binary64 → Option Ordering
  | nan, _ => none
  | _, nan => none
  | infinite a, infinite b => some (if a = b then .eq else if a then .lt else .gt)
  | infinite a, finite .. => some (if a then .lt else .gt)
  | finite .., infinite b => some (if b then .gt else .lt)
  | finite a m _, finite b n _ => some (compare (signed a m) (signed b n))

/-- Numeric equality: `nan` differs from itself and the two zeros are equal. -/
def equal (x y : Binary64) : Bool := compare? x y == some .eq

/-! ## Arithmetic -/

def neg : Binary64 → Binary64
  | nan => nan
  | infinite negative => infinite !negative
  | finite negative units h => finite (!negative) units h

/-- A sum that cancels is positive zero, unless both operands are negative. -/
def add : Binary64 → Binary64 → Binary64
  | nan, _ => nan
  | _, nan => nan
  | infinite a, infinite b => if a = b then infinite a else nan
  | infinite a, finite .. => infinite a
  | finite .., infinite b => infinite b
  | finite a m _, finite b n _ => ofUnits (signed a m + signed b n) (a && b)

def sub (x y : Binary64) : Binary64 := add x (neg y)

def mul : Binary64 → Binary64 → Binary64
  | nan, _ => nan
  | _, nan => nan
  | infinite a, infinite b => infinite (a != b)
  | infinite a, finite b n _ => if n = 0 then nan else infinite (a != b)
  | finite a m _, infinite b => if m = 0 then nan else infinite (a != b)
  | finite a m _, finite b n _ => ofQuotient (a != b) (m * n) one

def div : Binary64 → Binary64 → Binary64
  | nan, _ => nan
  | _, nan => nan
  | infinite _, infinite _ => nan
  | infinite a, finite b .. => infinite (a != b)
  | finite a .., infinite b => zero (a != b)
  | finite a m _, finite b n _ =>
    if n = 0 then (if m = 0 then nan else infinite (a != b))
    else ofQuotient (a != b) (m * one) n

/-- What is left of `x` after taking away whole multiples of `y`, with the sign of `x`. -/
def rem : Binary64 → Binary64 → Binary64
  | nan, _ => nan
  | _, nan => nan
  | infinite _, _ => nan
  | x@(finite ..), infinite _ => x
  | finite a m _, finite _ n _ => if n = 0 then nan else ofQuotient a (m % n) 1

/-- The nearest integer, a half away from zero, keeping the sign. -/
def round : Binary64 → Binary64
  | finite negative units _ => ofQuotient negative (roundQuotient units one .up * one) 1
  | x => x

end Binary64

end DataFilter
