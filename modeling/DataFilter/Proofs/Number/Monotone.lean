import DataFilter.Number.Decimal.Binary
import DataFilter.Proofs.Number.Nearest

/-!
# Rounding keeps the order

Of two quotients with one divisor the larger is never rounded to less, and what is a magnitude
already is kept. So a quotient that a magnitude bounds is rounded to no more than the magnitude,
which is all that is needed to follow a bound through several operations (`Binary64.AtMost`).

Whole numbers are turned into binary ones in their order. A decimal is turned into a finite number
of at most `2^96`; one with decimals stays well below.
-/

namespace DataFilter

/-! ## Rounding a quotient -/

section Quotient

variable {a b num den bound : Nat}

theorem roundQuotient_mono (den : Nat) (tie : Tie) (h : a ≤ b) :
    roundQuotient a den tie ≤ roundQuotient b den tie := by
  rcases Nat.lt_or_eq_of_le (Nat.div_le_div_right (c := den) h) with below | same
  · calc roundQuotient a den tie ≤ a / den + 1 := roundQuotient_le a den tie
      _ ≤ b / den := below
      _ ≤ roundQuotient b den tie := div_le_roundQuotient b den tie
  · -- the whole parts are the same, so the remainders are in order
    have rest : a % den ≤ b % den := by
      have ha := Nat.div_add_mod a den
      have hb := Nat.div_add_mod b den
      rw [same] at ha
      omega
    unfold roundQuotient
    rw [same]
    cases tie <;> dsimp only <;> split_ifs <;> omega

theorem roundQuotient_le_of_le (tie : Tie) (pos : 0 < den) (h : num ≤ bound * den) :
    roundQuotient num den tie ≤ bound := by
  calc roundQuotient num den tie ≤ roundQuotient (bound * den) den tie :=
        roundQuotient_mono den tie h
    _ = bound := by
        rw [roundQuotient_of_dvd tie pos (Nat.dvd_mul_left den bound), Nat.mul_div_cancel _ pos]

theorem le_roundQuotient (tie : Tie) (pos : 0 < den) (h : bound * den ≤ num) :
    bound ≤ roundQuotient num den tie :=
  Nat.le_trans ((Nat.le_div_iff_mul_le pos).mpr h) (div_le_roundQuotient num den tie)

end Quotient

/-! ## Rounding to a magnitude -/

section Units

variable {a b num den units : Nat}

theorem log2_mono (h : a ≤ b) : a.log2 ≤ b.log2 := by
  rcases Nat.eq_zero_or_pos a with rfl | pos
  · exact Nat.zero_le _
  · exact (Nat.le_log2 (by omega)).mpr (Nat.le_trans (Nat.log2_self_le pos.ne') h)

/-- The gap of a number divides the gaps of all that are larger. -/
theorem magnitudeGap_dvd (h : a ≤ b) : magnitudeGap a ∣ magnitudeGap b :=
  Nat.pow_dvd_pow 2 (Nat.sub_le_sub_right (log2_mono h) 52)

theorem magnitudeGap_dvd_two_pow (exponent : Nat) : magnitudeGap (2 ^ exponent) ∣ 2 ^ exponent := by
  rw [magnitudeGap, Nat.log2_two_pow]
  exact Nat.pow_dvd_pow 2 (Nat.sub_le exponent 52)

/-- Multiples of the gap stay multiples of the gap when they are doubled. -/
theorem magnitudeGap_dvd_two_pow_mul (exponent : Nat) (dvd : magnitudeGap units ∣ units) :
    magnitudeGap (2 ^ exponent * units) ∣ 2 ^ exponent * units := by
  induction exponent with
  | zero => rwa [Nat.pow_zero, Nat.one_mul]
  | succ exponent ih =>
      rw [Nat.pow_succ', Nat.mul_assoc]
      generalize 2 ^ exponent * units = doubled at ih ⊢
      rcases Nat.eq_zero_or_pos doubled with rfl | pos
      · exact Nat.dvd_zero _
      · refine Nat.dvd_trans ?_ (Nat.mul_dvd_mul_left 2 ih)
        rw [magnitudeGap, magnitudeGap, Nat.log2_two_mul pos.ne', Nat.pow_eq, Nat.pow_eq,
          ← Nat.pow_succ']
        exact Nat.pow_dvd_pow 2 (by omega)

/-- A quotient is rounded to no more than a magnitude that bounds it. -/
theorem roundUnits_le (pos : 0 < den) (dvd : magnitudeGap units ∣ units)
    (h : num ≤ units * den) : roundUnits num den ≤ units := by
  have whole : num / den ≤ units := Nat.div_le_of_le_mul (Nat.mul_comm units den ▸ h)
  have wide := magnitudeGap_pos (num / den)
  obtain ⟨k, hk⟩ := Nat.dvd_trans (magnitudeGap_dvd whole) dvd
  simp only [roundUnits]
  generalize magnitudeGap (num / den) = gap at wide hk ⊢
  rw [hk, Nat.mul_comm gap k]
  refine Nat.mul_le_mul_right gap (roundQuotient_le_of_le .toEven (Nat.mul_pos pos wide) ?_)
  calc num ≤ units * den := h
    _ = k * (den * gap) := by rw [hk]; ring

/-- A quotient is rounded to no less than any multiple of its gap below it. -/
theorem le_roundUnits_of_gap (pos : 0 < den) (dvd : magnitudeGap (num / den) ∣ units)
    (h : units * den ≤ num) : units ≤ roundUnits num den := by
  have wide := magnitudeGap_pos (num / den)
  obtain ⟨k, hk⟩ := dvd
  simp only [roundUnits]
  generalize magnitudeGap (num / den) = gap at wide hk ⊢
  rw [hk, Nat.mul_comm gap k]
  refine Nat.mul_le_mul_right gap (le_roundQuotient .toEven (Nat.mul_pos pos wide) ?_)
  calc k * (den * gap) = units * den := by rw [hk]; ring
    _ ≤ num := h

/-- A quotient is rounded to no less than the power of two below it. -/
theorem two_pow_le_roundUnits (pos : 0 < den) (h : num / den ≠ 0) :
    2 ^ (num / den).log2 ≤ roundUnits num den := by
  refine le_roundUnits_of_gap pos (Nat.pow_dvd_pow 2 (Nat.sub_le _ 52)) ?_
  exact (Nat.le_div_iff_mul_le pos).mp (Nat.log2_self_le h)

theorem roundUnits_mono (pos : 0 < den) (h : a ≤ b) : roundUnits a den ≤ roundUnits b den := by
  have whole : a / den ≤ b / den := Nat.div_le_div_right h
  rcases Nat.lt_or_eq_of_le (log2_mono whole) with shorter | same
  · -- a power of two lies between the two quotients
    have nonzero : b / den ≠ 0 := by
      intro zero
      rw [zero, Nat.log2_zero] at shorter
      exact Nat.not_lt_zero _ shorter
    refine Nat.le_trans (roundUnits_le pos (magnitudeGap_dvd_two_pow _) ?_)
      (two_pow_le_roundUnits pos nonzero)
    have below : a / den < 2 ^ (b / den).log2 :=
      Nat.lt_of_lt_of_le Nat.lt_log2_self (Nat.pow_le_pow_right (by decide) shorter)
    exact Nat.le_of_lt ((Nat.div_lt_iff_lt_mul pos).mp below)
  · simp only [roundUnits, magnitudeGap_congr same]
    exact Nat.mul_le_mul_right _ (roundQuotient_mono _ .toEven h)

/-- A magnitude is not changed by rounding. -/
theorem roundUnits_of_magnitude (dvd : magnitudeGap units ∣ units) : roundUnits units 1 = units := by
  refine Nat.le_antisymm (roundUnits_le Nat.one_pos dvd (Nat.mul_one units).ge) ?_
  exact le_roundUnits_of_gap Nat.one_pos (by rwa [Nat.div_one]) (Nat.mul_one units).le

end Units

/-! ## Numbers within a bound -/

namespace Binary64

theorem magnitudeGap_dvd_one : magnitudeGap one ∣ one := by
  unfold one
  generalize 1074 = n
  exact magnitudeGap_dvd_two_pow n

/-- Powers of two are magnitudes. -/
theorem magnitudeGap_dvd_power (exponent : Nat) :
    magnitudeGap (2 ^ exponent * one) ∣ 2 ^ exponent * one :=
  magnitudeGap_dvd_two_pow_mul exponent magnitudeGap_dvd_one

theorem one_lt_magnitudeLimit : one < magnitudeLimit := by
  have bits : 1074 < 2098 := by decide
  unfold one magnitudeLimit
  generalize 1074 = units at bits ⊢
  generalize 2098 = limit at bits ⊢
  exact Nat.pow_lt_pow_right (by decide) bits

theorem power_lt_magnitudeLimit {exponent : Nat} (h : exponent < 1024) :
    2 ^ exponent * one < magnitudeLimit := by
  have bits : exponent + 1074 < 2098 := by omega
  unfold one magnitudeLimit
  generalize 1074 = units at bits ⊢
  generalize 2098 = limit at bits ⊢
  rw [Nat.pow_eq, Nat.pow_eq, ← Nat.pow_add]
  exact Nat.pow_lt_pow_right (by decide) bits

theorem two_pow_mul_lt_magnitudeLimit {units exponent bits : Nat} (h : units ≤ 2 ^ bits * one)
    (small : exponent + bits < 1024) : 2 ^ exponent * units < magnitudeLimit := by
  calc 2 ^ exponent * units ≤ 2 ^ exponent * (2 ^ bits * one) := Nat.mul_le_mul_left _ h
    _ = 2 ^ (exponent + bits) * one := by rw [← Nat.mul_assoc, ← Nat.pow_add]
    _ < magnitudeLimit := power_lt_magnitudeLimit small

/-- A finite number, no further away from zero than so many units. -/
def AtMost (x : Binary64) (bound : Nat) : Prop :=
  ∃ negative units isMagnitude, x = finite negative units isMagnitude ∧ units ≤ bound

section AtMost

variable {x y : Binary64} {bound other : Nat}

theorem AtMost.mono (h : x.AtMost bound) (le : bound ≤ other) : x.AtMost other := by
  obtain ⟨negative, units, magnitude, rfl, small⟩ := h
  exact ⟨negative, units, magnitude, rfl, Nat.le_trans small le⟩

theorem AtMost.ite (c : Prop) [Decidable c] (left : x.AtMost bound) (right : y.AtMost bound) :
    (if c then x else y).AtMost bound := by
  split
  · exact left
  · exact right

theorem AtMost.ne_nan (h : x.AtMost bound) : x ≠ nan := by
  obtain ⟨negative, units, magnitude, rfl, -⟩ := h
  exact Binary64.noConfusion

theorem atMost_of_roundUnits {num den : Nat} (negative : Bool) (small : roundUnits num den ≤ bound)
    (format : bound < magnitudeLimit) : (ofQuotient negative num den).AtMost bound :=
  ⟨negative, _, _, dif_pos (Nat.lt_of_le_of_lt small format), small⟩

theorem atMost_ofQuotient {num den : Nat} (negative : Bool) (pos : 0 < den)
    (dvd : magnitudeGap bound ∣ bound) (format : bound < magnitudeLimit)
    (h : num ≤ bound * den) : (ofQuotient negative num den).AtMost bound :=
  atMost_of_roundUnits negative (roundUnits_le pos dvd h) format

theorem AtMost.neg (h : x.AtMost bound) : x.neg.AtMost bound := by
  obtain ⟨negative, units, magnitude, rfl, small⟩ := h
  exact ⟨!negative, units, magnitude, rfl, small⟩

theorem AtMost.add (left : x.AtMost bound) (right : y.AtMost other) {sum : Nat}
    (le : bound + other ≤ sum) (dvd : magnitudeGap sum ∣ sum) (format : sum < magnitudeLimit) :
    (x.add y).AtMost sum := by
  obtain ⟨a, m, hm, rfl, hx⟩ := left
  obtain ⟨b, n, hn, rfl, hy⟩ := right
  show (ofUnits (signed a m + signed b n) (a && b)).AtMost sum
  have far : (signed a m + signed b n).natAbs ≤ sum := by
    unfold signed
    split <;> split <;> omega
  unfold ofUnits
  split
  · exact ⟨_, 0, isMagnitude_zero, rfl, Nat.zero_le sum⟩
  · exact atMost_ofQuotient _ Nat.one_pos dvd format (by rwa [Nat.mul_one])

theorem AtMost.mul (left : x.AtMost bound) (right : y.AtMost other) {product : Nat}
    (le : bound * other ≤ product * one) (dvd : magnitudeGap product ∣ product)
    (format : product < magnitudeLimit) : (x.mul y).AtMost product := by
  obtain ⟨a, m, hm, rfl, hx⟩ := left
  obtain ⟨b, n, hn, rfl, hy⟩ := right
  exact atMost_ofQuotient _ one_pos dvd format
    (Nat.le_trans (Nat.mul_le_mul hx hy) le)

/-- Dividing by a number that is not zero. -/
theorem AtMost.div (left : x.AtMost bound) {negative : Bool} {units quotient : Nat}
    {isMagnitude : IsMagnitude units} (divisor : y = finite negative units isMagnitude)
    (nonzero : units ≠ 0) (le : bound * one ≤ quotient * units)
    (dvd : magnitudeGap quotient ∣ quotient) (format : quotient < magnitudeLimit) :
    (x.div y).AtMost quotient := by
  obtain ⟨a, m, hm, rfl, hx⟩ := left
  rw [divisor, Binary64.div, if_neg nonzero]
  exact atMost_ofQuotient _ (Nat.pos_of_ne_zero nonzero) dvd format
    (Nat.le_trans (Nat.mul_le_mul_right one hx) le)

/-- Rounding to a whole number stays within a bound that is a whole number. -/
theorem AtMost.round (h : x.AtMost bound) (whole : one ∣ bound) (dvd : magnitudeGap bound ∣ bound)
    (format : bound < magnitudeLimit) : x.round.AtMost bound := by
  obtain ⟨negative, units, magnitude, rfl, small⟩ := h
  obtain ⟨k, hk⟩ := whole
  have few : roundQuotient units one .up ≤ k :=
    roundQuotient_le_of_le .up one_pos (by rwa [Nat.mul_comm k one, ← hk])
  refine atMost_ofQuotient negative Nat.one_pos dvd format ?_
  rw [Nat.mul_one, hk, Nat.mul_comm one k]
  exact Nat.mul_le_mul_right one few

end AtMost

/-! ## Whole numbers -/

section Whole

variable {m n : Int}

theorem atMost_ofInt {exponent : Nat} (small : n.natAbs ≤ 2 ^ exponent) (format : exponent < 1024) :
    (ofInt n).AtMost (2 ^ exponent * one) := by
  refine atMost_ofQuotient _ Nat.one_pos (magnitudeGap_dvd_power exponent)
    (power_lt_magnitudeLimit format) ?_
  rw [Nat.mul_one]
  exact Nat.mul_le_mul_right one small

/-- A finite number that a whole number is turned into is the nearest one. -/
theorem eq_of_ofInt {negative : Bool} {units : Nat} {isMagnitude : IsMagnitude units}
    (h : ofInt n = finite negative units isMagnitude) :
    negative = decide (n < 0) ∧ units = roundUnits (n.natAbs * one) 1 ∧ units < magnitudeLimit := by
  rw [ofInt, ofQuotient] at h
  split at h
  · rename_i format
    cases h
    exact ⟨rfl, rfl, format⟩
  · cases h

theorem roundUnits_natAbs_mono (h : m.natAbs ≤ n.natAbs) :
    roundUnits (m.natAbs * one) 1 ≤ roundUnits (n.natAbs * one) 1 :=
  roundUnits_mono Nat.one_pos (Nat.mul_le_mul_right one h)

/-- Whole numbers are turned into binary ones in their order. -/
theorem ofInt_mono {a b : Bool} {u v : Nat} {hu : IsMagnitude u} {hv : IsMagnitude v}
    (left : ofInt m = finite a u hu) (right : ofInt n = finite b v hv) (h : m ≤ n) :
    signed a u ≤ signed b v := by
  obtain ⟨rfl, rfl, -⟩ := eq_of_ofInt left
  obtain ⟨rfl, rfl, -⟩ := eq_of_ofInt right
  unfold signed
  rcases Int.lt_or_le m 0 with negative | positive
  · rcases Int.lt_or_le n 0 with negative' | positive'
    · have := roundUnits_natAbs_mono (by omega : n.natAbs ≤ m.natAbs)
      rw [if_pos (decide_eq_true negative), if_pos (decide_eq_true negative')]
      omega
    · rw [if_pos (decide_eq_true negative), if_neg (by simpa using positive')]
      omega
  · have := roundUnits_natAbs_mono (by omega : m.natAbs ≤ n.natAbs)
    rw [if_neg (by simpa using positive), if_neg (by simp; omega)]
    omega

theorem atMost_ofInt_of_le (small : m.natAbs ≤ n.natAbs) {negative : Bool} {units : Nat}
    {isMagnitude : IsMagnitude units} (h : ofInt n = finite negative units isMagnitude) :
    (ofInt m).AtMost units := by
  obtain ⟨-, rfl, format⟩ := eq_of_ofInt h
  exact atMost_of_roundUnits _ (roundUnits_natAbs_mono small) format

/-- No whole number but zero is turned into less than one. -/
theorem one_le_of_ofInt {negative : Bool} {units : Nat} {isMagnitude : IsMagnitude units}
    (nonzero : n ≠ 0) (h : ofInt n = finite negative units isMagnitude) : one ≤ units := by
  obtain ⟨-, rfl, -⟩ := eq_of_ofInt h
  calc one = roundUnits one 1 := (roundUnits_of_magnitude magnitudeGap_dvd_one).symm
    _ ≤ roundUnits (n.natAbs * one) 1 :=
        roundUnits_mono Nat.one_pos (Nat.le_mul_of_pos_left one (Int.natAbs_pos.mpr nonzero))

/-- Where numbers are as large as one, the gaps are no less than `2^-52`. -/
theorem one_dvd_two_pow_mul {units : Nat} (dvd : magnitudeGap units ∣ units) (h : one ≤ units) :
    one ∣ 2 ^ 52 * units := by
  refine Nat.dvd_trans ?_ (Nat.mul_dvd_mul_left (2 ^ 52) dvd)
  have bits := log2_mono h
  rw [magnitudeGap, Nat.pow_eq, ← Nat.pow_add]
  revert bits
  unfold one
  generalize 1074 = n
  rw [Nat.pow_eq, Nat.log2_two_pow]
  exact fun bits => Nat.pow_dvd_pow 2 (by omega)

end Whole

end Binary64

/-! ## Decimals -/

namespace Decimal

open Binary64

theorem natAbs_signed (d : Decimal) : d.signed.natAbs = d.coefficient := by
  unfold signed
  split <;> omega

theorem toBinary64_of_scale_zero {d : Decimal} (h : d.scale = 0) :
    d.toBinary64 = Binary64.ofInt d.signed :=
  if_pos h

/-- A decimal with decimals is far below the largest ones, and so is its binary number. -/
theorem atMost_toBinary64_of_scale {d : Decimal} (h : d.scale ≠ 0) :
    d.toBinary64.AtMost (2 ^ 94 * one) := by
  have ten : 10 ^ 1 ≤ 10 ^ d.scale := Nat.pow_le_pow_right (by decide) (Nat.pos_of_ne_zero h)
  have power_le : 10 ^ d.scale ≤ 10 ^ 28 := Nat.pow_le_pow_right (by decide) d.scale_le
  have limit := d.coefficient_lt
  unfold coefficientLimit at limit
  have dvd := magnitudeGap_dvd_power
  rw [toBinary64, if_neg h]
  simp only [Nat.pow_eq]
  generalize 10 ^ d.scale = power at ten power_le ⊢
  have whole : (ofInt (d.coefficient / power)).AtMost (2 ^ 93 * one) := by
    refine atMost_ofInt ?_ (by decide)
    have : d.coefficient / power ≤ 2 ^ 93 := Nat.div_le_of_le_mul (by omega)
    exact_mod_cast this
  -- the power of ten that divides the coefficient, as a binary number
  have bounded : (ofInt power).AtMost (2 ^ 94 * one) :=
    atMost_ofInt (by rw [Int.natAbs_natCast]; omega) (by decide)
  obtain ⟨negative, units, magnitude, found, small⟩ := bounded
  have large : one ≤ units := one_le_of_ofInt (by omega) found
  have nonzero : units ≠ 0 := Nat.pos_iff_ne_zero.mp (Nat.lt_of_lt_of_le Binary64.one_pos large)
  have gap := magnitudeGap_dvd_two_pow_mul 94 (gap_dvd_of_isMagnitude magnitude)
  have grid : one ∣ 2 ^ 94 * units :=
    (one_dvd_two_pow_mul (gap_dvd_of_isMagnitude magnitude) large).trans
      (Nat.mul_dvd_mul_right (Nat.pow_dvd_pow 2 (by decide)) units)
  have format : 2 ^ 94 * units < magnitudeLimit := two_pow_mul_lt_magnitudeLimit small (by decide)
  have rest : (ofInt (d.coefficient % power)).AtMost units := by
    refine atMost_ofInt_of_le ?_ found
    have : d.coefficient % power ≤ power := Nat.le_of_lt (Nat.mod_lt _ (by omega))
    exact_mod_cast this
  have fraction : ((ofInt (d.coefficient % power)).div (ofInt power)).AtMost one :=
    rest.div found nonzero (Nat.le_of_eq (Nat.mul_comm units one)) magnitudeGap_dvd_one
      one_lt_magnitudeLimit
  have sum := whole.add fraction (by omega) (dvd 94) (power_lt_magnitudeLimit (by decide))
  have product := sum.mul ⟨negative, units, magnitude, found, Nat.le_refl units⟩
    (Nat.le_of_eq (Nat.mul_right_comm _ _ _)) gap format
  have quotient := (product.round grid gap format).div found nonzero
    (Nat.le_of_eq (Nat.mul_right_comm _ _ _)) (dvd 94) (power_lt_magnitudeLimit (by decide))
  have magnitude_le := AtMost.ite (((ofInt (d.coefficient % power)).div (ofInt power)).isZero = true)
    (whole.mono (by omega)) quotient
  split
  · exact magnitude_le.neg
  · exact magnitude_le

theorem atMost_toBinary64 (d : Decimal) : d.toBinary64.AtMost (2 ^ 96 * one) := by
  by_cases h : d.scale = 0
  · rw [toBinary64_of_scale_zero h]
    refine atMost_ofInt ?_ (by decide)
    rw [natAbs_signed]
    exact Nat.le_of_lt d.coefficient_lt
  · exact (atMost_toBinary64_of_scale h).mono
      (Nat.mul_le_mul_right one (Nat.pow_le_pow_right (by decide) (by decide)))

end Decimal

end DataFilter
