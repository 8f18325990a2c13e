import DataFilter.Proofs.Number.Monotone

/-!
# From binary to decimal in order

A larger binary number is never turned into a smaller decimal, although the conversion rounds more
than once. What it does after the powers of two are gone depends on the value alone and keeps the
order (`settledParts`). The powers of two are traded for powers of five with a loss of less than
`1074 * 5 / 2^96` of the value, while two binary numbers differ by at least `2^-53` of it.

Numbers from `2^52` up are whole and kept as they are; from `2^96` up there is no decimal.
-/

namespace DataFilter.Decimal

/-! ## Rounding decimals away -/

section Settling

variable {m n : Nat}

theorem tenthUp_mono (h : m ≤ n) : tenthUp m ≤ tenthUp n := roundQuotient_mono 10 .up h

theorem tenthUp_ten_mul (m : Nat) : tenthUp (10 * m) = m := by
  rw [tenthUp, roundQuotient_of_dvd .up (by decide) (Nat.dvd_mul_right 10 m),
    Nat.mul_div_cancel_left m (by decide)]

theorem tenthUp_le (h : 2 ≤ m) : tenthUp m ≤ m := by
  have := roundQuotient_le m 10 .up
  unfold tenthUp
  omega

/-- A mantissa with so many decimals dropped, one at a time. -/
def dropDecimals : Nat → Nat → Nat
  | 0, m => m
  | count + 1, m => if m / 10 = 0 then 0 else dropDecimals count (tenthUp m)

theorem toScale28_eq (count : Nat) (c : Conversion) :
    c.toScale28 count = ⟨dropDecimals count c.mantissa, c.ten + count⟩ ∨
      c.toScale28 count = ⟨0, 0⟩ ∧ dropDecimals count c.mantissa = 0 := by
  induction count generalizing c with
  | zero => exact .inl (by simp [Conversion.toScale28, dropDecimals])
  | succ count ih =>
      unfold Conversion.toScale28 dropDecimals
      split
      · exact .inr ⟨rfl, rfl⟩
      · refine (ih ⟨tenthUp c.mantissa, c.ten + 1⟩).imp (fun h => h.trans ?_) id
        simp only [Nat.cast_succ, Conversion.mk.injEq, true_and]
        omega

theorem dropDecimals_zero (count : Nat) : dropDecimals count 0 = 0 := by
  cases count <;> simp [dropDecimals]

theorem dropDecimals_mono (count : Nat) (h : m ≤ n) :
    dropDecimals count m ≤ dropDecimals count n := by
  induction count generalizing m n with
  | zero => exact h
  | succ count ih =>
      unfold dropDecimals
      split
      · exact Nat.zero_le _
      · rw [if_neg (by omega)]
        exact ih (tenthUp_mono h)

theorem dropDecimals_le (count m : Nat) : dropDecimals count m ≤ m := by
  induction count generalizing m with
  | zero => exact Nat.le_refl m
  | succ count ih =>
      unfold dropDecimals
      split
      · exact Nat.zero_le m
      · exact Nat.le_trans (ih _) (tenthUp_le (by omega))

/-- A zero at the end is dropped without a trace. -/
theorem dropDecimals_ten_mul (count m : Nat) :
    dropDecimals (count + 1) (10 * m) = dropDecimals count m := by
  rw [dropDecimals, tenthUp_ten_mul, Nat.mul_div_cancel_left m (by decide)]
  split
  · rename_i zero
    rw [zero, dropDecimals_zero]
  · rfl

/-- A coefficient with a scale of at most 28, counted in parts of `10^-28`. -/
def parts (r : Nat × Nat) : Nat := r.1 * 10 ^ (28 - r.2)

theorem toDouble_of_lt (h : m < 4503599627370496) (scale : Nat) : toDouble m scale = (m, scale) := by
  cases scale with
  | zero => rfl
  | succ scale => exact if_neg (by omega)

theorem toDouble_of_ge (h : 4503599627370496 ≤ m) (scale : Nat) :
    toDouble m (scale + 1) = toDouble (tenthUp m) scale := if_pos h

theorem toDouble_le (m scale : Nat) : (toDouble m scale).1 ≤ m ∧ (toDouble m scale).2 ≤ scale := by
  induction scale generalizing m with
  | zero => exact ⟨Nat.le_refl m, Nat.le_refl 0⟩
  | succ scale ih =>
      rcases Nat.lt_or_ge m 4503599627370496 with short | long
      · rw [toDouble_of_lt short]
        exact ⟨Nat.le_refl m, Nat.le_refl _⟩
      · rw [toDouble_of_ge long]
        obtain ⟨mantissa, fewer⟩ := ih (tenthUp m)
        exact ⟨Nat.le_trans mantissa (tenthUp_le (by omega)), Nat.le_succ_of_le fewer⟩

theorem stripZeros_le (m scale : Nat) :
    (stripZeros m scale).1 ≤ m ∧ (stripZeros m scale).2 ≤ scale := by
  induction scale generalizing m with
  | zero => exact ⟨Nat.le_refl m, Nat.le_refl 0⟩
  | succ scale ih =>
      unfold stripZeros
      split
      · obtain ⟨mantissa, fewer⟩ := ih (m / 10)
        exact ⟨Nat.le_trans mantissa (Nat.div_le_self m 10), Nat.le_succ_of_le fewer⟩
      · exact ⟨Nat.le_refl m, Nat.le_refl _⟩

theorem ten_pow_sub {scale : Nat} (h : scale + 1 ≤ 28) :
    10 ^ (28 - scale) = 10 * 10 ^ (28 - (scale + 1)) := by
  rw [← Nat.pow_succ']
  congr 1
  omega

theorem parts_stripZeros (m : Nat) {scale : Nat} (h : scale ≤ 28) :
    parts (stripZeros m scale) = parts (m, scale) := by
  induction scale generalizing m with
  | zero => rfl
  | succ scale ih =>
      unfold stripZeros
      split
      · rw [ih (m / 10) (by omega), parts, parts, ten_pow_sub h, ← Nat.mul_assoc,
          Nat.div_mul_cancel (by omega)]
      · rfl

/-- Rounding the last decimal away leaves a tenth of a full mantissa at least. -/
theorem le_ten_mul_tenthUp (long : 4503599627370496 ≤ m) : 4503599627370496 ≤ 10 * tenthUp m := by
  have := tenthUp_mono long
  have full : tenthUp 4503599627370496 = 450359962737050 := rfl
  omega

theorem le_parts {scale : Nat} (few : scale + 1 ≤ 28) (long : 4503599627370496 ≤ 10 * m) :
    4503599627370496 * 10 ^ (28 - (scale + 1)) ≤ parts (m, scale) := by
  rw [parts, ten_pow_sub few, ← Nat.mul_assoc, Nat.mul_comm m 10]
  exact Nat.mul_le_mul_right _ long

/-- What is left of a mantissa that was full stays above every mantissa that is not. -/
theorem le_parts_toDouble {scale : Nat} (few : scale + 1 ≤ 28)
    (long : 4503599627370496 ≤ 10 * m) :
    4503599627370496 * 10 ^ (28 - (scale + 1)) ≤ parts (toDouble m scale) := by
  induction scale generalizing m with
  | zero => exact le_parts few long
  | succ scale ih =>
      rcases Nat.lt_or_ge m 4503599627370496 with short | full
      · rw [toDouble_of_lt short]
        exact le_parts few long
      · rw [toDouble_of_ge full]
        refine Nat.le_trans (Nat.mul_le_mul_left _ ?_)
          (ih (by omega) (le_ten_mul_tenthUp full))
        exact Nat.pow_le_pow_right (by decide) (by omega)

theorem parts_toDouble_mono {scale : Nat} (few : scale ≤ 28) (h : m ≤ n) :
    parts (toDouble m scale) ≤ parts (toDouble n scale) := by
  induction scale generalizing m n with
  | zero => exact Nat.mul_le_mul_right _ h
  | succ scale ih =>
      rcases Nat.lt_or_ge n 4503599627370496 with short | full
      · rw [toDouble_of_lt short, toDouble_of_lt (Nat.lt_of_le_of_lt h short)]
        exact Nat.mul_le_mul_right _ h
      · rw [toDouble_of_ge full]
        rcases Nat.lt_or_ge m 4503599627370496 with short | full'
        · rw [toDouble_of_lt short]
          exact Nat.le_trans (Nat.mul_le_mul_right _ (Nat.le_of_lt short))
            (le_parts_toDouble few (le_ten_mul_tenthUp full))
        · rw [toDouble_of_ge full']
          exact ih (by omega) (tenthUp_mono h)

/-- A zero at the end does not matter. -/
theorem parts_toDouble_ten_mul {scale : Nat} (few : scale + 1 ≤ 28) (m : Nat) :
    parts (toDouble (10 * m) (scale + 1)) = parts (toDouble m scale) := by
  rcases Nat.lt_or_ge (10 * m) 4503599627370496 with short | full
  · rw [toDouble_of_lt short, toDouble_of_lt (by omega), parts, parts, ten_pow_sub few]
    ring
  · rw [toDouble_of_ge full, tenthUp_ten_mul]

/-! ## A mantissa with decimals settled -/

/-- What becomes of a mantissa with so many decimals, in parts of `10^-28`. -/
def settledParts (m decimals : Nat) : Nat :=
  parts (toDouble (dropDecimals (decimals - 28) m) (min decimals 28))

theorem settledParts_ten_mul (m decimals : Nat) :
    settledParts (10 * m) (decimals + 1) = settledParts m decimals := by
  unfold settledParts
  rcases Nat.lt_or_ge decimals 28 with few | many
  · rw [Nat.sub_eq_zero_of_le few, Nat.sub_eq_zero_of_le (Nat.le_of_lt few),
      Nat.min_eq_left few, Nat.min_eq_left (Nat.le_of_lt few)]
    exact parts_toDouble_ten_mul few m
  · rw [Nat.sub_add_comm many, dropDecimals_ten_mul, Nat.min_eq_right many,
      Nat.min_eq_right (Nat.le_succ_of_le many)]

theorem settledParts_ten_pow_mul (m decimals count : Nat) :
    settledParts (10 ^ count * m) (decimals + count) = settledParts m decimals := by
  induction count with
  | zero => rw [Nat.pow_zero, Nat.one_mul, Nat.add_zero]
  | succ count ih =>
      rw [Nat.pow_succ', Nat.mul_assoc, ← Nat.add_assoc, settledParts_ten_mul, ih]

/-- Settling keeps the order of the values, in whatever decimals they are given. -/
theorem settledParts_mono {a b : Nat} (h : m * 10 ^ b ≤ n * 10 ^ a) :
    settledParts m a ≤ settledParts n b := by
  rw [← settledParts_ten_pow_mul m a b, ← settledParts_ten_pow_mul n b a, Nat.add_comm b a]
  refine parts_toDouble_mono (Nat.min_le_right _ _) (dropDecimals_mono _ ?_)
  rwa [Nat.mul_comm (10 ^ b), Nat.mul_comm (10 ^ a)]

end Settling

/-! ## Powers of two traded for powers of five -/

/-- What working `count` factors of five into a mantissa of `total` decimals leaves: a mantissa that
fits, with as many decimals at most, which stand for the exact product or a little less. -/
structure WorksIn (start total count mantissa decimals : Nat) : Prop where
  fits : mantissa < coefficientLimit
  fewer : decimals ≤ total
  enough : total ≤ decimals + count
  below : mantissa * 10 ^ (total - decimals) ≤ start * 5 ^ count
  close : start * 5 ^ count * coefficientLimit ≤
    mantissa * 10 ^ (total - decimals) * coefficientLimit + 5 * count * (start * 5 ^ count)

/-- One more factor. Only halving an odd mantissa loses anything, and such a mantissa is long. -/
theorem WorksIn.step {start total count mantissa decimals : Nat}
    (h : WorksIn start total count mantissa decimals) (more : count < total) :
    ∃ mantissa' decimals' : Nat,
      Conversion.timesFive ⟨mantissa, -decimals⟩ = ⟨mantissa', -decimals'⟩ ∧
        WorksIn start total (count + 1) mantissa' decimals' := by
  obtain ⟨fits, fewer, enough, below, close⟩ := h
  obtain ⟨fraction, rfl⟩ : ∃ fraction, decimals = fraction + 1 := ⟨decimals - 1, by omega⟩
  have one_less : ((-(fraction + 1 : Nat) : Int) + 1) = -(fraction : Int) := by omega
  have five : start * 5 ^ (count + 1) = 5 * (start * 5 ^ count) := by ring
  have ten : 10 ^ (total - fraction) = 10 * 10 ^ (total - (fraction + 1)) := by
    rw [← Nat.pow_succ']
    congr 1
    omega
  generalize hexact : start * 5 ^ count = exact at below close five
  generalize hpower : 10 ^ (total - (fraction + 1)) = power at below close ten
  unfold coefficientLimit at fits close
  unfold Conversion.timesFive coefficientLimit
  dsimp only
  by_cases even : mantissa % 2 = 0
  · rw [if_pos even, one_less]
    have value : mantissa / 2 * (10 * power) = 5 * (mantissa * power) := by
      obtain ⟨k, rfl⟩ := Nat.dvd_of_mod_eq_zero even
      rw [Nat.mul_div_cancel_left k (by decide)]
      ring
    refine ⟨mantissa / 2, fraction, rfl, ?_, by omega, by omega, ?_, ?_⟩
    · unfold coefficientLimit
      omega
    · rw [ten, five, value]
      omega
    · rw [ten, five, value]
      unfold coefficientLimit
      linarith
  · rw [if_neg even]
    by_cases room : mantissa * 5 < 79228162514264337593543950336
    · rw [if_pos room]
      have value : mantissa * 5 * power = 5 * (mantissa * power) := by ring
      refine ⟨mantissa * 5, fraction + 1, rfl, room, fewer, by omega, ?_, ?_⟩
      · rw [hpower, five, value]
        omega
      · rw [hpower, five, value]
        unfold coefficientLimit
        linarith
    · rw [if_neg room, one_less]
      have value : mantissa / 2 * (10 * power) + 5 * power = 5 * (mantissa * power) := by
        obtain ⟨k, rfl⟩ : ∃ k, mantissa = 2 * k + 1 := ⟨mantissa / 2, by omega⟩
        rw [show (2 * k + 1) / 2 = k by omega]
        ring
      -- what is lost is a small part of the value, which is at least that of the long mantissa
      have lost : 79228162514264337593543950336 * power ≤ 5 * exact := by
        have long := Nat.mul_le_mul_right power (Nat.le_of_not_lt room)
        linarith
      refine ⟨mantissa / 2, fraction, rfl, ?_, by omega, by omega, ?_, ?_⟩
      · unfold coefficientLimit
        omega
      · rw [ten, five]
        omega
      · rw [ten, five]
        unfold coefficientLimit
        linarith

/-- All the factors. -/
theorem worksIn_repeat {start total count : Nat} (fits : start < coefficientLimit)
    (le : count ≤ total) :
    ∃ mantissa decimals : Nat,
      Nat.repeat Conversion.timesFive count ⟨start, -total⟩ = ⟨mantissa, -decimals⟩ ∧
        WorksIn start total count mantissa decimals := by
  induction count with
  | zero =>
      refine ⟨start, total, rfl, fits, Nat.le_refl _, Nat.le_refl _, ?_, ?_⟩
      · simp
      · simp
  | succ count ih =>
      obtain ⟨mantissa, decimals, reached, works⟩ := ih (by omega)
      obtain ⟨mantissa', decimals', stepped, works'⟩ := works.step le
      refine ⟨mantissa', decimals', ?_, works'⟩
      rw [Nat.repeat, reached, stepped]

/-! ## Fractions

All binary numbers are whole numbers of `10^-1074`: a unit is `5^1074` of them. -/

section Fractions

/-- How many parts of `10^-1074` a unit is. -/
def unitParts : Nat := Nat.pow 5 1074

variable {units total : Nat}

/-- A magnitude with a gap below one, in parts of `10^-1074`. -/
theorem mul_unitParts (gap : magnitudeGap units = 2 ^ (1074 - total)) (le : total ≤ 1074)
    (dvd : magnitudeGap units ∣ units) :
    units * unitParts = units / magnitudeGap units * 5 ^ total * 10 ^ (1074 - total) := by
  obtain ⟨k, hk⟩ := dvd
  have start : units / magnitudeGap units = k :=
    Nat.div_eq_of_eq_mul_right (magnitudeGap_pos units) hk
  rw [start]
  conv_lhs => rw [hk, gap]
  unfold unitParts
  revert le
  generalize 1074 = n
  intro le
  have split : Nat.pow 5 n = 5 ^ (n - total) * 5 ^ total := by
    rw [Nat.pow_eq, ← Nat.pow_add, Nat.sub_add_cancel le]
  rw [split, show (10 : Nat) = 2 * 5 from rfl, Nat.mul_pow]
  ring

theorem lt_magnitudeGap_mul (units : Nat) : units < magnitudeGap units * 2 ^ 53 := by
  rw [magnitudeGap, Nat.pow_eq, ← Nat.pow_add]
  exact Nat.lt_of_lt_of_le Nat.lt_log2_self (Nat.pow_le_pow_right (by decide) (by omega))

theorem div_magnitudeGap_lt (units : Nat) : units / magnitudeGap units < 2 ^ 53 :=
  Nat.div_lt_of_lt_mul (lt_magnitudeGap_mul units)

/-- The end of a conversion settles the mantissa. -/
theorem parts_of_settled (mantissa decimals : Nat) (fits : mantissa < coefficientLimit) :
    let scaled := Conversion.toScale28 (decimals - 28) ⟨mantissa, -decimals⟩
    let r := stripZeros (toDouble scaled.mantissa (-scaled.ten).toNat).1
      (toDouble scaled.mantissa (-scaled.ten).toNat).2
    parts r = settledParts mantissa decimals ∧ r.1 < coefficientLimit ∧ r.2 ≤ 28 := by
  intro scaled r
  have small : scaled.mantissa < coefficientLimit ∧ (-scaled.ten).toNat ≤ 28 ∧
      parts (toDouble scaled.mantissa (-scaled.ten).toNat) = settledParts mantissa decimals := by
    unfold settledParts
    rcases toScale28_eq (decimals - 28) ⟨mantissa, -decimals⟩ with reached | ⟨vanished, zero⟩
    · rw [show scaled = _ from reached]
      dsimp only
      rw [show (-(-(decimals : Int) + (decimals - 28 : Nat))).toNat = min decimals 28 by omega]
      exact ⟨Nat.lt_of_le_of_lt (dropDecimals_le _ mantissa) fits, Nat.min_le_right _ _, rfl⟩
    · dsimp only at zero
      rw [show scaled = ⟨0, 0⟩ from vanished, zero, toDouble_of_lt (by decide),
        toDouble_of_lt (by decide), parts, parts]
      simp [coefficientLimit]
  obtain ⟨short, few, settled⟩ := small
  have cut := toDouble_le scaled.mantissa (-scaled.ten).toNat
  have stripped := stripZeros_le (toDouble scaled.mantissa (-scaled.ten).toNat).1
    (toDouble scaled.mantissa (-scaled.ten).toNat).2
  refine ⟨?_, ?_, ?_⟩
  · rw [← settled]
    exact parts_stripZeros _ (Nat.le_trans cut.2 few)
  · exact Nat.lt_of_le_of_lt (Nat.le_trans stripped.1 cut.1) short
  · exact Nat.le_trans (Nat.le_trans stripped.2 cut.2) few

/-- A magnitude with a gap of at most one is turned into what settles close to it. -/
theorem ofMagnitude?_of_fine (gap : magnitudeGap units = 2 ^ (1074 - total)) (le : total ≤ 1074)
    (magnitude : IsMagnitude units) :
    ∃ r fraction, ofMagnitude? units = some r ∧ r.1 < coefficientLimit ∧ r.2 ≤ 28 ∧
      parts r = settledParts fraction 1074 ∧ fraction ≤ units * unitParts ∧
      units * unitParts * coefficientLimit ≤
        fraction * coefficientLimit + 5370 * (units * unitParts) := by
  have exact := mul_unitParts gap le (gap_dvd_of_isMagnitude magnitude)
  have two : ((magnitudeGap units).log2 : Int) - 1074 = -total := by
    rw [gap, Nat.log2_two_pow]
    omega
  have short : units / magnitudeGap units < coefficientLimit :=
    Nat.lt_trans (div_magnitudeGap_lt units) (by decide)
  obtain ⟨mantissa, decimals, reached, works⟩ := worksIn_repeat short (Nat.le_refl total)
  obtain ⟨settled, fits, few⟩ := parts_of_settled mantissa decimals works.fits
  have spread : mantissa * 10 ^ (1074 - decimals) =
      mantissa * 10 ^ (total - decimals) * 10 ^ (1074 - total) := by
    have fewer := works.fewer
    have decimalsLeft : 1074 - decimals = total - decimals + (1074 - total) := by omega
    rw [decimalsLeft, Nat.pow_add, Nat.mul_assoc]
  refine ⟨_, mantissa * 10 ^ (1074 - decimals), ?_, fits, few, ?_, ?_, ?_⟩
  · have rest : (-(total : Int)).toNat = 0 := by omega
    have whole : (-(decimals : Int)).toNat = 0 := by omega
    have steps : (-28 - -(decimals : Int)).toNat = decimals - 28 := by omega
    have fraction : min (-(decimals : Int)) 0 = -decimals := by omega
    have room : timesTen? mantissa 0 = some mantissa := by
      rw [timesTen?, Nat.pow_eq, Nat.pow_zero, Nat.mul_one, if_pos works.fits]
    unfold ofMagnitude?
    dsimp only
    rw [two, Int.neg_neg, Int.toNat_natCast, reached, rest]
    simp only [Conversion.overFives?, Option.bind_eq_bind, Option.bind_some, whole, room, steps,
      fraction]
    rfl
  · rw [settled, ← settledParts_ten_pow_mul mantissa decimals (1074 - decimals), Nat.mul_comm,
      Nat.add_sub_cancel' (Nat.le_trans works.fewer le)]
  · rw [spread, exact]
    exact Nat.mul_le_mul_right _ works.below
  · rw [spread, exact]
    have close := Nat.mul_le_mul_right (10 ^ (1074 - total)) works.close
    generalize units / magnitudeGap units * 5 ^ total = product at close ⊢
    generalize mantissa * 10 ^ (total - decimals) = worked at close ⊢
    generalize 10 ^ (1074 - total) = power at close ⊢
    calc product * power * coefficientLimit = product * coefficientLimit * power := by ring
      _ ≤ (worked * coefficientLimit + 5 * total * product) * power := close
      _ = worked * power * coefficientLimit + 5 * total * (product * power) := by ring
      _ ≤ worked * power * coefficientLimit + 5370 * (product * power) :=
          Nat.add_le_add_left (Nat.mul_le_mul_right _ (by omega)) _

end Fractions

/-! ## Whole numbers -/

section Whole

variable {mantissa count : Nat}

theorem overFives?_of_lt (fits : mantissa * 2 ^ count < coefficientLimit) :
    Conversion.overFives? count ⟨mantissa, count⟩ = some ⟨mantissa * 2 ^ count, 0⟩ := by
  induction count generalizing mantissa with
  | zero => simp [Conversion.overFives?]
  | succ count ih =>
      rw [Nat.pow_succ', ← Nat.mul_assoc] at fits ⊢
      have room : mantissa * 2 < coefficientLimit :=
        Nat.lt_of_le_of_lt (Nat.le_mul_of_pos_right _ (Nat.two_pow_pos count)) fits
      rw [Conversion.overFives?, if_pos room, Nat.cast_succ, Int.add_sub_cancel]
      exact ih fits

theorem overFives?_of_ge (fits : mantissa < coefficientLimit)
    (large : coefficientLimit ≤ mantissa * 2 ^ count) :
    Conversion.overFives? count ⟨mantissa, count⟩ = none := by
  induction count generalizing mantissa with
  | zero => omega
  | succ count ih =>
      rw [Nat.pow_succ', ← Nat.mul_assoc] at large
      rw [Conversion.overFives?]
      by_cases room : mantissa * 2 < coefficientLimit
      · rw [if_pos room, Nat.cast_succ, Int.add_sub_cancel]
        exact ih room large
      · rw [if_neg room, if_pos (by simp only [Nat.cast_succ]; omega)]

/-- A magnitude with a gap of at least one is a whole number, and kept as it is if it fits. -/
theorem ofMagnitude?_of_whole {units : Nat} (gap : (magnitudeGap units).log2 = count + 1074)
    (dvd : magnitudeGap units ∣ units) :
    ∃ whole, units = whole * Binary64.one ∧
      ofMagnitude? units = if whole < coefficientLimit then some (whole, 0) else none := by
  have two : ((magnitudeGap units).log2 : Int) - 1074 = count := by omega
  have power : magnitudeGap units = 2 ^ count * Binary64.one := by
    rw [magnitudeGap, Nat.pow_eq, Nat.log2_two_pow] at gap
    unfold Binary64.one
    generalize 1074 = bits at gap
    rw [magnitudeGap, gap, Nat.pow_eq, Nat.pow_eq, Nat.pow_add]
  have start := div_magnitudeGap_lt units
  have short : units / magnitudeGap units < coefficientLimit := Nat.lt_trans start (by decide)
  refine ⟨units / magnitudeGap units * 2 ^ count, ?_, ?_⟩
  · rw [Nat.mul_assoc, ← power, Nat.div_mul_cancel dvd]
  · unfold ofMagnitude?
    dsimp only
    rw [two]
    have none : (-(count : Int)).toNat = 0 := by omega
    rw [none, Int.toNat_natCast, Nat.repeat]
    split
    · rename_i fits
      rw [overFives?_of_lt fits]
      have room : timesTen? (units / magnitudeGap units * 2 ^ count) 0 =
          some (units / magnitudeGap units * 2 ^ count) := by
        rw [timesTen?, Nat.pow_eq, Nat.pow_zero, Nat.mul_one, if_pos fits]
      simp [room, Conversion.toScale28, toDouble, stripZeros]
    · rename_i large
      rw [overFives?_of_ge short (Nat.le_of_not_lt large)]
      rfl

end Whole

/-! ## The order of the decimals -/

section Order

open Binary64

variable {u v : Nat} {r t : Nat × Nat}

/-- What a magnitude below `2^52` is turned into. -/
theorem ofMagnitude?_of_small (magnitude : IsMagnitude u) (small : u < 2 ^ 52 * one) :
    ∃ r fraction, ofMagnitude? u = some r ∧ r.1 < coefficientLimit ∧ r.2 ≤ 28 ∧
      parts r = settledParts fraction 1074 ∧ fraction ≤ u * unitParts ∧
      u * unitParts * coefficientLimit ≤
        fraction * coefficientLimit + 5370 * (u * unitParts) := by
  have bits : u.log2 - 52 ≤ 1074 := by
    rcases Nat.eq_zero_or_pos u with rfl | pos
    · exact Nat.zero_le _
    · unfold one at small
      generalize 1074 = n at small
      rw [Nat.pow_eq, ← Nat.pow_add, ← Nat.log2_lt pos.ne'] at small
      omega
  have gap : magnitudeGap u = 2 ^ (1074 - (1074 - (u.log2 - 52))) := by
    rw [Nat.sub_sub_self bits]
    rfl
  exact ofMagnitude?_of_fine gap (Nat.sub_le _ _) magnitude

/-- A magnitude from `2^52` up is kept as it is if it fits. -/
theorem ofMagnitude?_of_large (magnitude : IsMagnitude u) (large : 2 ^ 52 * one ≤ u) :
    ∃ whole, u = whole * one ∧
      ofMagnitude? u = if whole < coefficientLimit then some (whole, 0) else none := by
  have bits : 1074 ≤ u.log2 - 52 := by
    have mono := log2_mono large
    unfold one at mono
    generalize 1074 = n at mono
    rw [Nat.pow_eq, ← Nat.pow_add, Nat.log2_two_pow] at mono
    omega
  have gap : (magnitudeGap u).log2 = u.log2 - 52 - 1074 + 1074 := by
    rw [magnitudeGap, Nat.pow_eq, Nat.log2_two_pow, Nat.sub_add_cancel bits]
  exact ofMagnitude?_of_whole gap (gap_dvd_of_isMagnitude magnitude)

/-- No decimal has the magnitude `2^96`, and none is larger. -/
theorem ofMagnitude?_eq_none_iff (magnitude : IsMagnitude u) :
    ofMagnitude? u = none ↔ coefficientLimit * one ≤ u := by
  rcases Nat.lt_or_ge u (2 ^ 52 * one) with small | large
  · obtain ⟨r, fraction, found, -⟩ := ofMagnitude?_of_small magnitude small
    have below : u < coefficientLimit * one :=
      Nat.lt_of_lt_of_le small (Nat.mul_le_mul_right one (by decide))
    rw [found]
    exact iff_of_false (Option.some_ne_none r) (Nat.not_le.mpr below)
  · obtain ⟨whole, same, found⟩ := ofMagnitude?_of_large magnitude large
    rw [found, same, Nat.mul_le_mul_right_iff Binary64.one_pos]
    split
    · exact iff_of_false (Option.some_ne_none _) (by omega)
    · exact iff_of_true rfl (by omega)

theorem eq_of_large (magnitude : IsMagnitude u) (large : 2 ^ 52 * one ≤ u)
    (found : ofMagnitude? u = some r) :
    ∃ whole, u = whole * one ∧ whole < coefficientLimit ∧ r = (whole, 0) := by
  obtain ⟨whole, same, found'⟩ := ofMagnitude?_of_large magnitude large
  rw [found'] at found
  split at found
  · rename_i fits
    exact ⟨whole, same, fits, (Option.some.inj found).symm⟩
  · cases found

theorem fits_of_ofMagnitude? (magnitude : IsMagnitude u) (found : ofMagnitude? u = some r) :
    r.1 < coefficientLimit ∧ r.2 ≤ 28 := by
  rcases Nat.lt_or_ge u (2 ^ 52 * one) with small | large
  · obtain ⟨r', fraction, found', fits, few, -⟩ := ofMagnitude?_of_small magnitude small
    obtain rfl := Option.some.inj (found.symm.trans found')
    exact ⟨fits, few⟩
  · obtain ⟨whole, -, fits, rfl⟩ := eq_of_large magnitude large found
    exact ⟨fits, Nat.zero_le 28⟩

/-- Two different magnitudes are a good part of the larger one apart. -/
theorem separated (left : IsMagnitude u) (right : IsMagnitude v) (lt : u < v) :
    u * (2 ^ 53 + 1) ≤ v * 2 ^ 53 := by
  have apart : u + magnitudeGap u ≤ v :=
    add_gap_le (gap_dvd_of_isMagnitude left)
      ((magnitudeGap_dvd (Nat.le_of_lt lt)).trans (gap_dvd_of_isMagnitude right)) lt
  have wide := lt_magnitudeGap_mul u
  omega

theorem unitParts_mul_one : unitParts * one = 10 ^ 1074 := by
  unfold unitParts one
  generalize 1074 = n
  rw [Nat.pow_eq, Nat.pow_eq, ← Nat.mul_pow]

/-- A magnitude below `2^52` is turned into no more than `2^52`. -/
theorem parts_le_of_small (magnitude : IsMagnitude u) (small : u < 2 ^ 52 * one)
    (found : ofMagnitude? u = some r) : parts r ≤ 2 ^ 52 * 10 ^ 28 := by
  obtain ⟨r', fraction, found', -, -, settled, below, -⟩ := ofMagnitude?_of_small magnitude small
  obtain rfl := Option.some.inj (found.symm.trans found')
  have le : fraction * 10 ^ 0 ≤ 2 ^ 52 * 10 ^ 1074 := by
    calc fraction * 10 ^ 0 ≤ u * unitParts := by rwa [Nat.pow_zero, Nat.mul_one]
      _ ≤ 2 ^ 52 * one * unitParts := Nat.mul_le_mul_right _ (Nat.le_of_lt small)
      _ = 2 ^ 52 * 10 ^ 1074 := by rw [Nat.mul_assoc, Nat.mul_comm one, unitParts_mul_one]
  rw [settled]
  exact settledParts_mono le

/-- Below `2^52` a larger magnitude is not turned into less. -/
theorem parts_mono_of_small (left : IsMagnitude u) (right : IsMagnitude v) (lt : u < v)
    (small : v < 2 ^ 52 * one) (found : ofMagnitude? u = some r)
    (found' : ofMagnitude? v = some t) : parts r ≤ parts t := by
  obtain ⟨r', a, hr, -, -, settled, below, -⟩ :=
    ofMagnitude?_of_small left (Nat.lt_trans lt small)
  obtain ⟨t', b, ht, -, -, settled', -, close⟩ := ofMagnitude?_of_small right small
  obtain rfl := Option.some.inj (found.symm.trans hr)
  obtain rfl := Option.some.inj (found'.symm.trans ht)
  -- the distance of the two is more than what working in the fives can lose
  have apart := Nat.mul_le_mul_right unitParts (separated left right lt)
  rw [Nat.mul_right_comm, Nat.mul_right_comm v] at apart
  rw [settled, settled']
  refine settledParts_mono (Nat.mul_le_mul_right _ ?_)
  unfold coefficientLimit at close
  generalize u * unitParts = x at below apart
  generalize v * unitParts = y at close apart
  omega

/-- A larger magnitude is not turned into less. -/
theorem parts_mono (left : IsMagnitude u) (right : IsMagnitude v) (le : u ≤ v)
    (found : ofMagnitude? u = some r) (found' : ofMagnitude? v = some t) : parts r ≤ parts t := by
  rcases Nat.lt_or_ge v (2 ^ 52 * one) with small | large
  · rcases Nat.lt_or_eq_of_le le with lt | rfl
    · exact parts_mono_of_small left right lt small found found'
    · rw [Option.some.inj (found.symm.trans found')]
  · obtain ⟨whole, same, -, rfl⟩ := eq_of_large right large found'
    rw [same] at le large
    rcases Nat.lt_or_ge u (2 ^ 52 * one) with small | large'
    · exact Nat.le_trans (parts_le_of_small left small found)
        (Nat.mul_le_mul_right _ (Nat.le_of_mul_le_mul_right large Binary64.one_pos))
    · obtain ⟨whole', same', -, rfl⟩ := eq_of_large left large' found
      rw [same'] at le
      exact Nat.mul_le_mul_right _ (Nat.le_of_mul_le_mul_right le Binary64.one_pos)

/-- What a magnitude is turned into is no more than a whole number that both formats have. -/
theorem exists_whole (magnitude : IsMagnitude u) (found : ofMagnitude? u = some r) :
    ∃ whole, whole < coefficientLimit ∧ magnitudeGap (whole * one) ∣ whole * one ∧
      parts r ≤ whole * 10 ^ 28 := by
  rcases Nat.lt_or_ge u (2 ^ 52 * one) with small | large
  · exact ⟨2 ^ 52, by decide, magnitudeGap_dvd_power 52, parts_le_of_small magnitude small found⟩
  · obtain ⟨whole, same, fits, rfl⟩ := eq_of_large magnitude large found
    exact ⟨whole, fits, same ▸ gap_dvd_of_isMagnitude magnitude, Nat.le_refl _⟩

end Order

end DataFilter.Decimal
