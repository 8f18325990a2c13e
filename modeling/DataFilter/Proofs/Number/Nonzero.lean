import DataFilter.Proofs.Number.Monotone

/-!
# What is turned into zero

Rounding never falls below a power of two, so a positive quotient stays positive as long as it is
no less than a unit. That is all that is needed to follow numbers that are not zero through several
operations (`Binary64.AtLeast`): no whole number and no decimal other than zero is turned into the
binary zero.
-/

namespace DataFilter

/-- A quotient is rounded to no less than any power of two below it. -/
theorem two_pow_le_roundUnits_of_le {num den exponent : Nat} (pos : 0 < den)
    (h : 2 ^ exponent * den ≤ num) : 2 ^ exponent ≤ roundUnits num den := by
  have whole : 2 ^ exponent ≤ num / den := (Nat.le_div_iff_mul_le pos).mpr h
  have nonzero : num / den ≠ 0 := by
    have := Nat.two_pow_pos exponent
    omega
  exact Nat.le_trans (Nat.pow_le_pow_right (by decide) ((Nat.le_log2 nonzero).mpr whole))
    (two_pow_le_roundUnits pos nonzero)

/-- From a half up there is a whole number to round to. -/
theorem one_le_roundQuotient_up {num den : Nat} (pos : 0 < den) (h : den ≤ 2 * num) :
    1 ≤ roundQuotient num den .up := by
  rcases Nat.lt_or_ge num den with small | large
  · unfold roundQuotient
    rw [Nat.div_eq_of_lt small, Nat.mod_eq_of_lt small]
    dsimp only
    rw [if_neg (Nat.not_lt.mpr h)]
    split <;> omega
  · exact le_roundQuotient .up pos (by rwa [Nat.one_mul])

namespace Binary64

theorem exists_one_eq : ∃ exponent, one = 2 ^ (exponent + 1) := by
  obtain ⟨exponent, bits⟩ : ∃ exponent, 1074 = exponent + 1 := ⟨1073, rfl⟩
  unfold one
  generalize 1074 = all at bits ⊢
  exact ⟨exponent, by rw [bits, Nat.pow_eq]⟩

theorem two_pow_le_one {exponent : Nat} (h : exponent ≤ 1074) : 2 ^ exponent ≤ one := by
  unfold one
  generalize 1074 = bits at h ⊢
  exact Nat.pow_le_pow_right (by decide) h

/-! ## Positive numbers with a bound below them -/

/-- A number that is not negative and no less than so many units. It may be infinite. -/
def AtLeast (x : Binary64) (bound : Nat) : Prop :=
  x = infinite false ∨ ∃ units isMagnitude, x = finite false units isMagnitude ∧ bound ≤ units

section AtLeast

variable {x y : Binary64} {bound : Nat}

theorem AtLeast.isZero_eq_false (h : x.AtLeast bound) (pos : 0 < bound) : x.isZero = false := by
  obtain rfl | ⟨units, magnitude, rfl, large⟩ := h
  · rfl
  · exact decide_eq_false (by omega)

theorem isZero_neg (x : Binary64) : x.neg.isZero = x.isZero := by
  cases x <;> rfl

theorem atLeast_of_roundUnits {num den : Nat} (large : bound ≤ roundUnits num den) :
    (ofQuotient false num den).AtLeast bound := by
  unfold ofQuotient
  split
  · exact .inr ⟨_, _, rfl, large⟩
  · exact .inl rfl

theorem atLeast_ofQuotient {num den exponent : Nat} (pos : 0 < den)
    (h : 2 ^ exponent * den ≤ num) : (ofQuotient false num den).AtLeast (2 ^ exponent) :=
  atLeast_of_roundUnits (two_pow_le_roundUnits_of_le pos h)

theorem atLeast_ofInt_zero {n : Int} (nonnegative : 0 ≤ n) : (ofInt n).AtLeast 0 := by
  rw [ofInt, decide_eq_false (Int.not_lt.mpr nonnegative)]
  exact atLeast_of_roundUnits (Nat.zero_le _)

theorem atLeast_ofInt {n : Int} (positive : 0 < n) : (ofInt n).AtLeast one := by
  rw [ofInt, decide_eq_false (Int.not_lt.mpr (Int.le_of_lt positive))]
  obtain ⟨exponent, power⟩ := exists_one_eq
  have large : one ≤ n.natAbs * one :=
    Nat.le_mul_of_pos_left one (Int.natAbs_pos.mpr (Int.ne_of_gt positive))
  rw [power] at large ⊢
  exact atLeast_ofQuotient Nat.one_pos (by rwa [Nat.mul_one])

theorem AtLeast.add_right {exponent : Nat} (left : x.AtLeast 0) (right : y.AtLeast (2 ^ exponent)) :
    (x.add y).AtLeast (2 ^ exponent) := by
  obtain rfl | ⟨m, hm, rfl, -⟩ := left
  · obtain rfl | ⟨n, hn, rfl, -⟩ := right <;> exact .inl rfl
  · obtain rfl | ⟨n, hn, rfl, large⟩ := right
    · exact .inl rfl
    · have pos := Nat.two_pow_pos exponent
      have sum : (m : Int) + n ≠ 0 := by omega
      have positive : ¬(m : Int) + n < 0 := by omega
      show (ofUnits ((m : Int) + n) false).AtLeast _
      rw [ofUnits, if_neg sum, decide_eq_false positive]
      exact atLeast_ofQuotient Nat.one_pos (by omega)

theorem AtLeast.mul {units exponent : Nat} {isMagnitude : IsMagnitude units}
    (left : x.AtLeast bound) (factor : y = finite false units isMagnitude) (nonzero : units ≠ 0)
    (le : 2 ^ exponent * one ≤ bound * units) : (x.mul y).AtLeast (2 ^ exponent) := by
  subst factor
  obtain rfl | ⟨m, hm, rfl, large⟩ := left
  · rw [Binary64.mul, if_neg nonzero]
    exact .inl rfl
  · exact atLeast_ofQuotient one_pos (Nat.le_trans le (Nat.mul_le_mul_right units large))

/-- A half or more is rounded to one or more. -/
theorem AtLeast.round (h : x.AtLeast bound) (half : one ≤ 2 * bound) : x.round.AtLeast one := by
  obtain rfl | ⟨m, hm, rfl, large⟩ := h
  · exact .inl rfl
  · obtain ⟨exponent, power⟩ := exists_one_eq
    have whole : 1 ≤ roundQuotient m one .up := one_le_roundQuotient_up one_pos (by omega)
    have least : one ≤ roundQuotient m one .up * one := Nat.le_mul_of_pos_left one whole
    show (ofQuotient false (roundQuotient m one .up * one) 1).AtLeast one
    generalize roundQuotient m one .up * one = rounded at least ⊢
    rw [power] at least ⊢
    exact atLeast_ofQuotient Nat.one_pos (by rwa [Nat.mul_one])

theorem AtLeast.div {units exponent : Nat} {isMagnitude : IsMagnitude units}
    (left : x.AtLeast bound) (divisor : y = finite false units isMagnitude) (nonzero : units ≠ 0)
    (le : 2 ^ exponent * units ≤ bound * one) : (x.div y).AtLeast (2 ^ exponent) := by
  subst divisor
  obtain rfl | ⟨m, hm, rfl, large⟩ := left
  · exact .inl rfl
  · rw [Binary64.div, if_neg nonzero]
    exact atLeast_ofQuotient (Nat.pos_of_ne_zero nonzero)
      (Nat.le_trans le (Nat.mul_le_mul_right one large))

end AtLeast

theorem roundUnits_zero {den : Nat} (pos : 0 < den) : roundUnits 0 den = 0 :=
  Nat.le_zero.mp (roundUnits_le pos (Nat.dvd_zero _) (Nat.zero_le _))

/-- Zero divided by what is not zero is zero. -/
theorem isZero_div {x y : Binary64} (zero : x.isZero = true) {negative : Bool} {units : Nat}
    {isMagnitude : IsMagnitude units} (divisor : y = finite negative units isMagnitude)
    (nonzero : units ≠ 0) : (x.div y).isZero = true := by
  cases x with
  | finite sign m hm =>
      obtain rfl : m = 0 := of_decide_eq_true zero
      have none := roundUnits_zero (Nat.pos_of_ne_zero nonzero)
      have format : roundUnits (0 * one) units < magnitudeLimit := by
        rw [Nat.zero_mul, none]
        exact Nat.lt_trans one_pos one_lt_magnitudeLimit
      rw [divisor, Binary64.div, if_neg nonzero, ofQuotient, dif_pos format, isZero,
        decide_eq_true_eq, Nat.zero_mul, none]
  | _ => cases zero

theorem isZero_ofInt (n : Int) : (ofInt n).isZero = decide (n = 0) := by
  rcases turned : ofInt n with _ | negative | ⟨negative, units, magnitude⟩
  · rw [ofInt, ofQuotient] at turned
    split at turned <;> cases turned
  · have nonzero : n ≠ 0 := by
      rintro rfl
      have small : (ofInt 0).AtMost (2 ^ 0 * one) := atMost_ofInt (by decide) (by decide)
      obtain ⟨_, _, _, finite, -⟩ := small
      rw [turned] at finite
      cases finite
    rw [decide_eq_false nonzero]
    rfl
  · refine decide_eq_decide.mpr ⟨?_, ?_⟩
    · intro none
      refine Classical.byContradiction fun nonzero => ?_
      have large := one_le_of_ofInt nonzero turned
      have pos := one_pos
      omega
    · rintro rfl
      obtain ⟨-, rounded, -⟩ := eq_of_ofInt turned
      rw [rounded, Int.natAbs_zero, Nat.zero_mul, roundUnits_zero Nat.one_pos]

end Binary64

/-! ## Decimals -/

namespace Decimal

open Binary64

section ToBinary

variable {rest power : Nat}

/-- A whole number that is small enough is turned into a finite one. -/
theorem exists_of_atMost {x : Binary64} {bound least : Nat} (above : x.AtLeast least)
    (below : x.AtMost bound) :
    ∃ units isMagnitude, x = finite false units isMagnitude ∧ least ≤ units ∧ units ≤ bound := by
  obtain ⟨negative, units, magnitude, rfl, small⟩ := below
  obtain infinite | ⟨units', magnitude', same, large⟩ := above
  · cases infinite
  · cases same
    exact ⟨units, magnitude, rfl, large, small⟩

theorem exists_ofInt_power (small : power ≤ 10 ^ 28) (pos : 0 < power) :
    ∃ units isMagnitude, ofInt power = finite false units isMagnitude ∧ one ≤ units ∧
      units ≤ 2 ^ 94 * one :=
  exists_of_atMost (atLeast_ofInt (by omega))
    (atMost_ofInt (by rw [Int.natAbs_natCast]; omega) (by decide))

/-- A fraction that is not zero survives all the steps of its conversion. Its binary number is half
of it or more, so with the power of ten it comes to a half or more and is rounded to one or more,
and that is divided by the power again. -/
theorem isZero_eq_false_of_rest (whole : Nat) (pos : 0 < rest) (small : power ≤ 10 ^ 28)
    (power_pos : 0 < power) :
    let fraction := (ofInt rest).div (ofInt power)
    let product := ((ofInt whole).add fraction).mul (ofInt power)
    fraction.isZero = false ∧ (product.round.div (ofInt power)).isZero = false := by
  intro fraction product
  obtain ⟨units, magnitude, turned, large, bounded⟩ := exists_ofInt_power small power_pos
  have unit := one_pos
  have nonzero : units ≠ 0 := by omega
  have units_pos : 0 < units := by omega
  -- the largest power of two that is no more than one divided by the power of ten
  have fits : units ≤ one * one :=
    Nat.le_trans bounded (Nat.mul_le_mul_right one (two_pow_le_one (by decide)))
  have some : one * one / units ≠ 0 := (Nat.div_pos fits units_pos).ne'
  obtain ⟨exponent, lower, upper⟩ : ∃ exponent, 2 ^ exponent * units ≤ one * one ∧
      one * one < 2 * (2 ^ exponent * units) := by
    refine ⟨(one * one / units).log2, ?_, ?_⟩
    · exact (Nat.le_div_iff_mul_le units_pos).mp (Nat.log2_self_le some)
    · rw [← Nat.mul_assoc, ← Nat.pow_succ']
      exact (Nat.div_lt_iff_lt_mul units_pos).mp Nat.lt_log2_self
  obtain ⟨half, power_of_two⟩ := exists_one_eq
  have double : one = 2 * 2 ^ half := by rw [power_of_two, Nat.pow_succ']
  have half_le : 2 ^ half * one ≤ 2 ^ exponent * units := by
    have twice : one * one = 2 * (2 ^ half * one) := by
      rw [← Nat.mul_assoc, ← double]
    omega
  have quotient : fraction.AtLeast (2 ^ exponent) :=
    (atLeast_ofInt (by omega : (0 : Int) < rest)).div turned nonzero lower
  have sum := (atLeast_ofInt_zero (Int.natCast_nonneg whole)).add_right quotient
  have rounded := (sum.mul turned nonzero half_le).round double.le
  have part := rounded.div turned nonzero lower
  have pos' := Nat.two_pow_pos exponent
  exact ⟨quotient.isZero_eq_false pos', part.isZero_eq_false pos'⟩

end ToBinary

/-- No decimal but zero is turned into the binary zero. -/
theorem isZero_toBinary64 (d : Decimal) : d.toBinary64.isZero = d.isZero := by
  by_cases scale : d.scale = 0
  · rw [toBinary64_of_scale_zero scale, isZero_ofInt]
    have same := natAbs_signed d
    exact decide_eq_decide.mpr (by omega)
  · have power_le : 10 ^ d.scale ≤ 10 ^ 28 := Nat.pow_le_pow_right (by decide) d.scale_le
    have power_pos : 0 < 10 ^ d.scale := Nat.pow_pos (by decide)
    have sign : ∀ x : Binary64, (if d.negative then x.neg else x).isZero = x.isZero := by
      intro x
      split
      · exact isZero_neg x
      · rfl
    rw [toBinary64, if_neg scale]
    simp only [Nat.pow_eq, sign]
    generalize 10 ^ d.scale = power at power_le power_pos ⊢
    rw [← Int.natCast_ediv, ← Int.natCast_mod]
    have split := Nat.div_add_mod d.coefficient power
    generalize d.coefficient / power = whole at split ⊢
    rcases Nat.eq_zero_or_pos (d.coefficient % power) with none | some
    · -- there is no fraction, and the number is the whole part
      obtain ⟨units, magnitude, turned, large, -⟩ := exists_ofInt_power power_le power_pos
      have nonzero : units ≠ 0 := by
        have := one_pos
        omega
      have zero : ((ofInt (d.coefficient % power : Nat)).div (ofInt power)).isZero = true :=
        isZero_div (by rw [none, isZero_ofInt]; rfl) turned nonzero
      rw [if_pos zero, isZero_ofInt]
      refine decide_eq_decide.mpr ?_
      rw [none, Nat.add_zero] at split
      rw [Int.natCast_eq_zero, ← split, Nat.mul_eq_zero]
      exact ⟨.inr, fun h => h.resolve_left power_pos.ne'⟩
    · obtain ⟨first, last⟩ := isZero_eq_false_of_rest whole some power_le power_pos
      rw [if_neg (ne_true_of_eq_false first), last]
      exact (decide_eq_false (by omega)).symm

end Decimal

end DataFilter
