import DataFilter.Proofs.Number.Nonzero
import DataFilter.Proofs.Number.RoundTrip

/-!
# Where numbers become infinite

A number is infinite if it is rounded beyond the format, and that is told before it is rounded: the
greatest magnitude is odd in its last bit, so the half behind it is rounded up, and every decimal
from `2^1024 - 2^970` on is infinite. This is a number of 309 digits.
-/

namespace DataFilter

/-- Up to an even number, a quotient is rounded to less just if it lies below the half before it. -/
theorem roundQuotient_lt_iff {num den m : Nat} (pos : 0 < den) (even : m % 2 = 0) :
    roundQuotient num den .toEven < m ↔ 2 * num + den < 2 * (m * den) := by
  have split := Nat.div_add_mod num den
  have small := Nat.mod_lt num pos
  have least := div_le_roundQuotient num den .toEven
  have most := roundQuotient_le num den .toEven
  rcases Nat.lt_trichotomy (num / den + 1) m with below | rfl | above
  · have gap : den * (num / den) + 2 * den ≤ m * den := by
      calc den * (num / den) + 2 * den = (num / den + 2) * den := by ring
        _ ≤ m * den := Nat.mul_le_mul_right den below
    constructor <;> intro <;> omega
  · have odd : num / den % 2 = 1 := by omega
    have product : (num / den + 1) * den = den * (num / den) + den := by ring
    unfold roundQuotient
    simp only [odd]
    constructor
    · intro less
      split at less
      · omega
      · split at less <;> simp at less
    · intro less
      rw [if_pos (by omega)]
      exact Nat.lt_succ_self _
  · have gap : m * den ≤ den * (num / den) := by
      rw [Nat.mul_comm den]
      exact Nat.mul_le_mul_right den (by omega)
    constructor <;> intro <;> omega

/-- Below a power of two of 53 bits and more, a quotient is rounded to less just if it lies below
the half behind the last magnitude before it. -/
theorem roundUnits_lt_iff {num den : Nat} (pos : 0 < den) (bits : Nat) :
    roundUnits num den < 2 ^ (bits + 53) ↔
      2 * num + 2 ^ bits * den < 2 * (2 ^ (bits + 53) * den) := by
  have double : 2 ^ (bits + 53) * den = 2 * (2 ^ (bits + 52) * den) := by ring
  have narrow : 2 ^ bits * den ≤ 2 ^ (bits + 52) * den :=
    Nat.mul_le_mul_right den (Nat.pow_le_pow_right (by decide) (Nat.le_add_right bits 52))
  rcases Nat.lt_or_ge (num / den) (2 ^ (bits + 52)) with small | large
  · have bound := (Nat.div_lt_iff_lt_mul pos).mp small
    have rounded := roundUnits_le pos (magnitudeGap_dvd_two_pow (bits + 52)) (Nat.le_of_lt bound)
    have power : 2 ^ (bits + 52) < 2 ^ (bits + 53) := Nat.pow_lt_pow_succ (by decide)
    constructor <;> intro <;> omega
  · rcases Nat.lt_or_ge (num / den) (2 ^ (bits + 53)) with within | beyond
    · have gap : magnitudeGap (num / den) = 2 ^ bits :=
        magnitudeGap_of_log2 (log2_eq_of_bounds large within)
      have rounded : roundUnits num den =
          roundQuotient num (den * 2 ^ bits) .toEven * 2 ^ bits := by
        rw [roundUnits, gap]
      rw [rounded, Nat.add_comm bits 53, Nat.pow_add,
        Nat.mul_lt_mul_right (Nat.two_pow_pos bits),
        roundQuotient_lt_iff (Nat.mul_pos pos (Nat.two_pow_pos bits)) (by decide)]
      rw [Nat.mul_comm den, Nat.mul_assoc]
    · have bound := (Nat.le_div_iff_mul_le pos).mp beyond
      have rounded := two_pow_le_roundUnits_of_le pos bound
      constructor <;> intro <;> omega

/-- The bound of what is rounded to less, for a number of units that is `2^shift` times as large. -/
theorem roundUnits_shifted_lt_iff {count den : Nat} (pos : 0 < den) (low shift : Nat) :
    roundUnits (count * 2 ^ shift) den < 2 ^ (low + (shift + 1) + 53) ↔
      count < (2 ^ (low + 54) - 2 ^ low) * den := by
  have left : 2 * (count * 2 ^ shift) + 2 ^ (low + (shift + 1)) * den =
      2 ^ (shift + 1) * (count + 2 ^ low * den) := by ring
  have right : 2 * (2 ^ (low + (shift + 1) + 53) * den) =
      2 ^ (shift + 1) * (2 ^ (low + 54) * den) := by ring
  rw [roundUnits_lt_iff pos, left, right, Nat.mul_lt_mul_left (Nat.two_pow_pos _), Nat.sub_mul,
    Nat.lt_sub_iff_add_lt]

namespace Binary64

theorem isFinite_ofQuotient_iff {negative : Bool} {num den : Nat} :
    (ofQuotient negative num den).isFinite = true ↔ roundUnits num den < magnitudeLimit := by
  unfold ofQuotient
  split
  · rename_i fits
    exact ⟨fun _ => fits, fun _ => rfl⟩
  · rename_i large
    exact ⟨fun finite => absurd finite Bool.false_ne_true, fun fits => absurd fits large⟩

/-- The first number that is rounded beyond the format, `2^1024 - 2^970`. -/
def overflowBound : Nat := Nat.pow 2 1024 - Nat.pow 2 970

/-- Ones are counted in units, `2^1074` of them each. -/
theorem roundUnits_ones_lt_iff {count den : Nat} (pos : 0 < den) :
    roundUnits (count * one) den < magnitudeLimit ↔ count < overflowBound * den := by
  obtain ⟨low, shift, gap, unit, bound, limit⟩ : ∃ low shift, 970 = low ∧ 1074 = shift ∧
      1024 = low + 54 ∧ 2098 = low + (shift + 1) + 53 :=
    ⟨970, 1074, rfl, rfl, rfl, rfl⟩
  unfold one magnitudeLimit overflowBound
  rw [gap, unit, bound, limit]
  exact roundUnits_shifted_lt_iff pos low shift

theorem overflowBound_pos : 0 < overflowBound := by
  obtain ⟨low, gap, bound⟩ : ∃ low, 970 = low ∧ 1024 = low + 54 := ⟨970, rfl, rfl⟩
  unfold overflowBound
  rw [gap, bound]
  exact Nat.sub_pos_of_lt (Nat.pow_lt_pow_right (by decide) (by omega))

/-- Digits with a point before the last `places` of them are a finite number just if they are less
than the bound. -/
theorem isFinite_ofDecimal_iff {negative : Bool} {digits places : Nat} :
    (ofDecimal negative digits (-places)).isFinite = true ↔
      digits < overflowBound * 10 ^ places := by
  have power : 0 < 10 ^ places := Nat.pow_pos (by decide)
  have bound : 10 ^ places ≤ overflowBound * 10 ^ places :=
    Nat.le_mul_of_pos_left _ overflowBound_pos
  unfold ofDecimal
  split
  · rename_i zero
    exact ⟨fun _ => by omega, fun _ => rfl⟩
  · rw [if_neg (by omega)]
    split
    · rename_i tiny
      refine ⟨fun _ => ?_, fun _ => rfl⟩
      have log : digits < 2 ^ (digits.log2 + 1) := Nat.lt_log2_self
      have two : 2 ^ (digits.log2 + 1) ≤ 10 ^ (digits.log2 + 1) := Nat.pow_le_pow_left (by decide) _
      have ten : 10 ^ (digits.log2 + 1) ≤ 10 ^ places :=
        Nat.pow_le_pow_right (by decide) (by omega)
      omega
    · split
      · rename_i whole
        obtain rfl : places = 0 := by omega
        rw [isFinite_ofQuotient_iff]
        have ones : roundUnits (digits * one) 1 < magnitudeLimit ↔ digits < overflowBound * 1 :=
          roundUnits_ones_lt_iff Nat.one_pos
        simpa using ones
      · rw [isFinite_ofQuotient_iff, Int.neg_neg, Int.toNat_natCast]
        exact roundUnits_ones_lt_iff power

end Binary64

end DataFilter
