import DataFilter.Operation.Table
import DataFilter.Proofs.Number.TowardZero
import DataFilter.Proofs.Operation.Ranks

/-!
# Arithmetic of whole numbers is exact

Sums, differences, products and opposites of whole numbers are the exact ones where these fit a
64-bit word, and overflow where they do not. Quotients and remainders are refused by zero, and
nothing but the least number by `-1` has a quotient that does not fit. Everything else has a
remainder smaller than the divisor and with the sign of the dividend. Where it is zero the quotient
is a whole number, and where it is not the quotient is a finite binary number.
-/

namespace DataFilter

namespace Integer

/-- The number is a whole number of the language. -/
def Fits (n : Int) : Prop := -9223372036854775808 ≤ n ∧ n < 9223372036854775808

/-- The least number divided by `-1`. -/
def IsExtreme (a b : Integer) : Prop := a.toInt = -9223372036854775808 ∧ b.toInt = -1

variable {a b : Integer}

theorem fits (a : Integer) : Fits a.toInt := ⟨a.lower, a.upper⟩

theorem exists_of_fits {n : Int} (h : Fits n) : ∃ c : Integer, ofInt? n = some c ∧ c.toInt = n :=
  ⟨⟨n, h.1, h.2⟩, ofInt?_eq_some_iff.mpr rfl, rfl⟩

/-- A quotient is no larger than the dividend, and reaches `2^63` in one way. -/
theorem fits_tdiv (nonzero : b.toInt ≠ 0) (other : ¬IsExtreme a b) :
    Fits (a.toInt.tdiv b.toInt) := by
  obtain ⟨lower, upper⟩ := a.fits
  have size : (a.toInt.tdiv b.toInt).natAbs ≤ a.toInt.natAbs := Int.natAbs_tdiv_le_natAbs _ _
  have small : a.toInt.tdiv b.toInt ≠ 9223372036854775808 := by
    intro large
    have least : a.toInt = -9223372036854775808 := by omega
    have parts : b.toInt * 9223372036854775808 + a.toInt.tmod b.toInt = a.toInt := by
      rw [← large]
      exact Int.mul_tdiv_add_tmod _ _
    have rest := natAbs_tmod_lt_natAbs a.toInt nonzero
    exact other ⟨least, by omega⟩
  unfold Fits
  omega

theorem not_fits_tdiv (extreme : IsExtreme a b) : ¬Fits (a.toInt.tdiv b.toInt) := by
  rw [extreme.1, extreme.2]
  unfold Fits
  decide

theorem fits_tmod (nonzero : b.toInt ≠ 0) : Fits (a.toInt.tmod b.toInt) := by
  obtain ⟨lower, upper⟩ := b.fits
  have rest := natAbs_tmod_lt_natAbs a.toInt nonzero
  unfold Fits
  omega

/-- The quotient of two whole numbers as binary numbers is finite. -/
theorem isFinite_div (nonzero : b.toInt ≠ 0) :
    ((Binary64.ofInt a.toInt).div (Binary64.ofInt b.toInt)).isFinite = true := by
  have dividend : (Binary64.ofInt a.toInt).AtMost (2 ^ 63 * Binary64.one) :=
    Binary64.atMost_ofInt (by have := a.fits; unfold Fits at this; omega) (by decide)
  have divisor : (Binary64.ofInt b.toInt).AtMost (2 ^ 63 * Binary64.one) :=
    Binary64.atMost_ofInt (by have := b.fits; unfold Fits at this; omega) (by decide)
  obtain ⟨negative, units, magnitude, found, -⟩ := divisor
  have large : Binary64.one ≤ units := Binary64.one_le_of_ofInt nonzero found
  have quotient := dividend.div found (by have := Binary64.one_pos; omega)
    (Nat.mul_le_mul_left _ large) (Binary64.magnitudeGap_dvd_power 63)
    (Binary64.power_lt_magnitudeLimit (by decide))
  exact quotient.isFinite

end Integer

open Integer

/-- The outcome of an operation whose exact result is the number `n`. -/
structure IsExact (op : Operator) (n : Int) (outcome : Except OperatorError Value) : Prop where
  /-- It is the number itself where this fits a 64-bit word. -/
  fits : Fits n → ∃ c : Integer, outcome = .ok (.integer c) ∧ c.toInt = n
  /-- It is the overflow of the operation where the number does not fit. -/
  overflows : ¬Fits n → outcome = .error (.overflow op)

/-- The number `r` remains when `a` is divided by `b`, and the quotient is of the type that it asks
for. -/
structure HasRemainder (a b r : Integer) (quotient : Except OperatorError Value) : Prop where
  smaller : r.toInt.natAbs < b.toInt.natAbs
  dvd : b.toInt ∣ a.toInt - r.toInt
  sign : r.toInt = 0 ∨ r.toInt.sign = a.toInt.sign
  eq_zero_iff : r.toInt = 0 ↔ b.toInt ∣ a.toInt
  /-- An even division has the whole quotient. -/
  even : b.toInt ∣ a.toInt →
    ∃ q : Integer, quotient = .ok (.integer q) ∧ q.toInt * b.toInt = a.toInt
  /-- An uneven one is left to binary numbers. -/
  uneven : ¬b.toInt ∣ a.toInt → ∃ x : Binary64, quotient = .ok (.float x) ∧ x.isFinite = true ∧
    x = (Binary64.ofInt a.toInt).div (Binary64.ofInt b.toInt)

/-- The outcomes of dividing `a` by `b`. -/
structure IsDivision (a b : Integer) (quotient remainder : Except OperatorError Value) : Prop where
  /-- Division is refused by zero and by nothing else. -/
  by_zero : (quotient = .error .divisionByZero ↔ b.toInt = 0) ∧
    (remainder = .error .divisionByZero ↔ b.toInt = 0)
  /-- Only the least number by `-1` overflows. -/
  overflows : (quotient = .error (.overflow .divide) ↔ IsExtreme a b) ∧
    (remainder = .error (.overflow .modulo) ↔ IsExtreme a b)
  /-- Everything else has a remainder. -/
  divides : b.toInt ≠ 0 → ¬IsExtreme a b →
    ∃ r : Integer, remainder = .ok (.integer r) ∧ HasRemainder a b r quotient

namespace Arithmetic

theorem isExact_checked (op : Arithmetic) (n : Int) :
    IsExact op.operator n ((op.checked (ofInt? n)).map .integer) where
  fits := by
    intro h
    obtain ⟨c, found, value⟩ := exists_of_fits h
    rw [found]
    exact ⟨c, rfl, value⟩
  overflows := by
    intro h
    rw [ofInt?_eq_none_iff.mpr h]
    rfl

variable {a b : Integer}

theorem integers_by_zero (zero : b.toInt = 0) :
    divide.integers a b = .error .divisionByZero ∧ modulo.integers a b = .error .divisionByZero :=
  ⟨if_pos zero, if_pos zero⟩

theorem integers_extreme (extreme : IsExtreme a b) :
    divide.integers a b = .error (.overflow .divide) ∧
      modulo.integers a b = .error (.overflow .modulo) := by
  have beyond : ofInt? (a.toInt.tdiv b.toInt) = none :=
    ofInt?_eq_none_iff.mpr (not_fits_tdiv extreme)
  have nonzero : b.toInt ≠ 0 := by
    rw [extreme.2]
    decide
  have even : ¬a.toInt.tmod b.toInt ≠ 0 := by
    rw [extreme.1, extreme.2]
    decide
  constructor
  · simp only [integers, if_neg nonzero, if_neg even, beyond]
    rfl
  · simp only [integers, if_neg nonzero, beyond]
    rfl

theorem integers_modulo (nonzero : b.toInt ≠ 0) (other : ¬IsExtreme a b) :
    ∃ r : Integer, modulo.integers a b = .ok (.integer r) ∧ r.toInt = a.toInt.tmod b.toInt := by
  obtain ⟨q, quotient, -⟩ := exists_of_fits (fits_tdiv nonzero other)
  obtain ⟨r, found, value⟩ := exists_of_fits (fits_tmod (a := a) nonzero)
  refine ⟨r, ?_, value⟩
  simp only [integers, if_neg nonzero, quotient, found]
  rfl

theorem integers_divide_of_dvd (nonzero : b.toInt ≠ 0) (other : ¬IsExtreme a b)
    (dvd : b.toInt ∣ a.toInt) :
    ∃ q : Integer, divide.integers a b = .ok (.integer q) ∧ q.toInt * b.toInt = a.toInt := by
  obtain ⟨q, found, value⟩ := exists_of_fits (fits_tdiv nonzero other)
  have even : ¬a.toInt.tmod b.toInt ≠ 0 := not_not_intro (Int.tmod_eq_zero_of_dvd dvd)
  refine ⟨q, ?_, by rw [value, Int.tdiv_mul_cancel dvd]⟩
  simp only [integers, if_neg nonzero, if_neg even, found]
  rfl

theorem integers_divide_of_not_dvd (nonzero : b.toInt ≠ 0) (uneven : ¬b.toInt ∣ a.toInt) :
    divide.integers a b =
      .ok (.float ((Binary64.ofInt a.toInt).div (Binary64.ofInt b.toInt))) := by
  have rest : a.toInt.tmod b.toInt ≠ 0 := mt Int.dvd_of_tmod_eq_zero uneven
  simp only [integers, if_neg nonzero, if_pos rest]

/-- What remains when neither zero nor an overflow is met. -/
theorem integers_divides (nonzero : b.toInt ≠ 0) (other : ¬IsExtreme a b) :
    (∃ v, divide.integers a b = .ok v) ∧ ∃ v, modulo.integers a b = .ok v := by
  obtain ⟨r, remainder, -⟩ := integers_modulo nonzero other
  refine ⟨?_, _, remainder⟩
  by_cases dvd : b.toInt ∣ a.toInt
  · obtain ⟨q, quotient, -⟩ := integers_divide_of_dvd nonzero other dvd
    exact ⟨_, quotient⟩
  · exact ⟨_, integers_divide_of_not_dvd nonzero dvd⟩

/-- Division fails by zero and for the least number by `-1`, and in no other way. -/
theorem integers_eq_error_iff {e : OperatorError} :
    (divide.integers a b = .error e ↔
      b.toInt = 0 ∧ e = .divisionByZero ∨ IsExtreme a b ∧ e = .overflow .divide) ∧
    (modulo.integers a b = .error e ↔
      b.toInt = 0 ∧ e = .divisionByZero ∨ IsExtreme a b ∧ e = .overflow .modulo) := by
  by_cases zero : b.toInt = 0
  · have other : ¬IsExtreme a b := fun extreme => by
      rw [extreme.2] at zero
      cases zero
    rw [(integers_by_zero zero).1, (integers_by_zero zero).2]
    simp [zero, other, eq_comm]
  · by_cases extreme : IsExtreme a b
    · rw [(integers_extreme extreme).1, (integers_extreme extreme).2]
      simp [zero, extreme, eq_comm]
    · obtain ⟨⟨v, quotient⟩, w, remainder⟩ := integers_divides zero extreme
      rw [quotient, remainder]
      simp [zero, extreme]

theorem hasRemainder_divide {r : Integer} (nonzero : b.toInt ≠ 0) (other : ¬IsExtreme a b)
    (value : r.toInt = a.toInt.tmod b.toInt) : HasRemainder a b r (divide.integers a b) where
  smaller := value ▸ natAbs_tmod_lt_natAbs _ nonzero
  dvd := Int.dvd_self_sub_of_tmod_eq value.symm
  sign := value ▸ tmod_eq_zero_or_sign_eq _ _
  eq_zero_iff := value ▸ ⟨Int.dvd_of_tmod_eq_zero, Int.tmod_eq_zero_of_dvd⟩
  even := integers_divide_of_dvd nonzero other
  uneven uneven := ⟨_, integers_divide_of_not_dvd nonzero uneven, isFinite_div nonzero, rfl⟩

theorem isDivision (a b : Integer) :
    IsDivision a b (divide.integers a b) (modulo.integers a b) where
  by_zero := by simp [integers_eq_error_iff]
  overflows := by simp [integers_eq_error_iff]
  divides := by
    intro nonzero other
    obtain ⟨r, remainder, value⟩ := integers_modulo nonzero other
    exact ⟨r, remainder, hasRemainder_divide nonzero other value⟩

end Arithmetic

namespace OperatorTable

theorem isExact_negate (a : Integer) :
    IsExact .negative (-a.toInt) (Value.negate (.integer a)) where
  fits := by
    intro h
    obtain ⟨c, found, value⟩ := exists_of_fits h
    refine ⟨c, ?_, value⟩
    rw [Value.negate, found]
  overflows := by
    intro h
    rw [Value.negate, ofInt?_eq_none_iff.mpr h]

/-- Operators of whole numbers have the exact result, or overflow where it does not fit; division
is exact where it is even, and refused by zero. -/
theorem whole_numbers_are_exact (a b : Integer) :
    IsExact .add (a.toInt + b.toInt) (standard.applyBinary (.integer a) .add (.integer b)) ∧
      IsExact .subtract (a.toInt - b.toInt)
        (standard.applyBinary (.integer a) .subtract (.integer b)) ∧
      IsExact .multiply (a.toInt * b.toInt)
        (standard.applyBinary (.integer a) .multiply (.integer b)) ∧
      IsExact .negative (-a.toInt) (standard.applyUnary .negative (.integer a)) ∧
      IsDivision a b (standard.applyBinary (.integer a) .divide (.integer b))
        (standard.applyBinary (.integer a) .modulo (.integer b)) := by
  refine ⟨?_, ?_, ?_, ?_, ?_⟩
  · exact Arithmetic.isExact_checked .add (a.toInt + b.toInt)
  · exact Arithmetic.isExact_checked .subtract (a.toInt - b.toInt)
  · exact Arithmetic.isExact_checked .multiply (a.toInt * b.toInt)
  · exact isExact_negate a
  · exact Arithmetic.isDivision a b

/-- The remainder goes with the dividend, and the quotient is not whole. -/
example :
    standard.applyBinary (.integer (.wrap (-7))) .modulo (.integer (.wrap 2)) =
        .ok (.integer (.wrap (-1))) ∧
      standard.applyBinary (.integer (.wrap (-7))) .divide (.integer (.wrap 2)) =
        .ok (.float ((Binary64.ofInt (-7)).div (.ofInt 2))) :=
  ⟨rfl, rfl⟩

end OperatorTable

end DataFilter
