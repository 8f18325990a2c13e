import Mathlib.Tactic.Ring

/-!
# Division toward zero

A remainder is smaller than the divisor and has the sign of the dividend.
-/

namespace DataFilter

section TowardZero

variable {x n : Int}

theorem tmod_nonpos (n : Int) (h : x ≤ 0) : x.tmod n ≤ 0 := by
  have opposite := Int.tmod_nonneg n (Int.neg_nonneg_of_nonpos h)
  rw [Int.neg_tmod] at opposite
  omega

theorem natAbs_tmod_lt_natAbs (x : Int) (nonzero : n ≠ 0) : (x.tmod n).natAbs < n.natAbs := by
  rw [Int.natAbs_tmod]
  exact Nat.mod_lt _ (Int.natAbs_pos.mpr nonzero)

theorem tmod_eq_zero_or_sign_eq (x n : Int) : x.tmod n = 0 ∨ (x.tmod n).sign = x.sign := by
  rw [Int.sign_tmod]
  split
  · exact .inl (Int.tmod_eq_zero_of_dvd ‹_›)
  · exact .inr rfl

/-- A multiple may be divided in two steps: the number first, and then what remains of it. -/
theorem mul_tdiv_eq (x : Int) (nonzero : n ≠ 0) {k : Int} (positive : 0 ≤ k) :
    (x * k).tdiv n = x.tdiv n * k + (x.tmod n * k).tdiv n := by
  have whole : n * x.tdiv n + x.tmod n = x := Int.mul_tdiv_add_tmod x n
  have rest : n * (x.tmod n * k).tdiv n + (x.tmod n * k).tmod n = x.tmod n * k :=
    Int.mul_tdiv_add_tmod _ n
  have small := natAbs_tmod_lt_natAbs (x.tmod n * k) nonzero
  have sum : (x.tmod n * k).tmod n + n * (x.tdiv n * k + (x.tmod n * k).tdiv n) = x * k := by
    calc (x.tmod n * k).tmod n + n * (x.tdiv n * k + (x.tmod n * k).tdiv n)
        = n * x.tdiv n * k + (n * (x.tmod n * k).tdiv n + (x.tmod n * k).tmod n) := by ring
      _ = (n * x.tdiv n + x.tmod n) * k := by rw [rest]; ring
      _ = x * k := by rw [whole]
  rcases Int.le_total 0 x with h | h
  · have sign := Int.tmod_nonneg n (Int.mul_nonneg (Int.tmod_nonneg n h) positive)
    exact ((Int.tdiv_tmod_unique (Int.mul_nonneg h positive) nonzero).mpr
      ⟨sum, sign, by omega⟩).1
  · have sign := tmod_nonpos n (Int.mul_nonpos_of_nonpos_of_nonneg (tmod_nonpos n h) positive)
    exact ((Int.tdiv_tmod_unique' (Int.mul_nonpos_of_nonpos_of_nonneg h positive) nonzero).mpr
      ⟨sum, by omega, sign⟩).1

end TowardZero

end DataFilter
