import DataFilter.Node.Render
import DataFilter.Proofs.Number.Digits
import DataFilter.Proofs.Number.Nearest

/-!
# The text of a binary number reads back

The shortest digits of a magnitude lie between its halfway points, and reading decimal text rounds
to the nearest magnitude. So the text of a finite number reads back as the same number, its sign
included. As a literal a whole number gets a decimal behind it; the coarsest grid is not finer than
whole numbers exactly for those, so no literal has two points and none is without one.
-/

namespace DataFilter.Binary64

/-! ## The decimal numbers that read back -/

section Grid

variable {units : Nat}

theorem gapBelow_pos (units : Nat) : 0 < gapBelow units := by
  have := magnitudeGap_pos units
  unfold gapBelow
  dsimp only
  split <;> omega

/-- A magnitude itself lies strictly between its halfway points. -/
theorem readsBack_exact (units : Nat) : readsBack units (units * unitOnDecimalGrid) = true := by
  have hunit := unitOnDecimalGrid_pos
  have hbelow := gapBelow_pos units
  have habove := magnitudeGap_pos units
  unfold readsBack
  dsimp only
  generalize unitOnDecimalGrid = unit at hunit
  have htwice : 2 * (units * unit) = 2 * units * unit := (Nat.mul_assoc _ _ _).symm
  have hle : (2 * units - gapBelow units) * unit ≤ 2 * units * unit :=
    Nat.mul_le_mul_right _ (Nat.sub_le _ _)
  have hge : 2 * units * unit < (2 * units + magnitudeGap units) * unit :=
    Nat.mul_lt_mul_of_pos_right (by omega) hunit
  split
  · exact decide_eq_true ⟨by omega, by omega⟩
  · refine decide_eq_true ⟨?_, by omega⟩
    rename_i odd
    have hpos : 0 < units := by
      rcases Nat.eq_zero_or_pos units with rfl | h
      · simp at odd
      · exact h
    rw [htwice]
    exact Nat.mul_lt_mul_of_pos_right (by omega) hunit

/-- A multiple that is found is not zero and passes the test. -/
theorem nearestMultiple_spec {test : Nat → Bool} {exact step coefficient : Nat} {tie : Tie}
    (h : nearestMultiple test exact step tie = some coefficient) :
    coefficient ≠ 0 ∧ test (coefficient * step) = true := by
  unfold nearestMultiple at h
  have hlow := div_le_roundQuotient exact step tie
  have hhigh := roundQuotient_le exact step tie
  dsimp only at h
  split at h
  · cases h
  · rename_i hbelow _
    cases h
    simpa using hbelow
  · rename_i _ habove
    cases h
    exact ⟨Nat.succ_ne_zero _, habove⟩
  · rename_i hbelow habove
    cases h
    simp only [Bool.and_eq_true, decide_eq_true_eq] at hbelow
    generalize roundQuotient exact step tie = found at hlow hhigh ⊢
    generalize exact / step = below at hlow hhigh hbelow habove
    obtain ⟨hne, hbelow⟩ := hbelow
    refine ⟨by omega, ?_⟩
    obtain rfl | rfl : found = below ∨ found = below + 1 := by omega
    · exact hbelow
    · exact habove

/-- What holds of the points that are found and of the finest one holds of the result. -/
theorem coarsestGrid_spec {find : Nat → Option Nat} {finest : Nat} {P : Nat → Nat → Prop}
    (found : ∀ grid coefficient, find grid = some coefficient → P coefficient grid)
    (last : P finest 0) (bound : Nat) :
    P (coarsestGrid find finest bound).1 (coarsestGrid find finest bound).2 := by
  induction bound with
  | zero => exact last
  | succ bound ih =>
      unfold coarsestGrid
      split
      · rename_i coefficient hfind
        exact found _ _ hfind
      · exact ih

/-- A grid on which a point is found is not passed over. -/
theorem le_coarsestGrid {find : Nat → Option Nat} {finest grid coefficient bound : Nat}
    (found : find grid = some coefficient) (hle : grid ≤ bound) :
    grid ≤ (coarsestGrid find finest bound).2 := by
  induction bound with
  | zero => omega
  | succ bound ih =>
      unfold coarsestGrid
      split
      · exact hle
      · rename_i hnone
        rcases Nat.lt_or_ge bound grid with hlt | hge
        · obtain rfl : grid = bound + 1 := by omega
          rw [hnone] at found
          cases found
        · exact ih hge

theorem shortest_eq (units : Nat) (tie : Tie) :
    shortest units tie =
      coarsestGrid (nearestOnGrid units · tie) (units * unitOnDecimalGrid)
        ((units * unitOnDecimalGrid).log2 / 3 + 1) := rfl

/-- The shortest decimal number of a magnitude is not zero and reads back. -/
theorem shortest_spec (nonzero : units ≠ 0) (tie : Tie) :
    (shortest units tie).1 ≠ 0 ∧
      readsBack units ((shortest units tie).1 * Nat.pow 10 (shortest units tie).2) = true := by
  rw [shortest_eq]
  refine coarsestGrid_spec (P := fun coefficient grid =>
    coefficient ≠ 0 ∧ readsBack units (coefficient * Nat.pow 10 grid) = true) ?_ ?_ _
  · intro grid coefficient hfound
    exact nearestMultiple_spec hfound
  · refine ⟨Nat.mul_ne_zero nonzero unitOnDecimalGrid_pos.ne', ?_⟩
    rw [Nat.pow_eq, Nat.pow_zero, Nat.mul_one]
    exact readsBack_exact units

end Grid

/-! ## Reading decimal text -/

theorem one_mul_unitOnDecimalGrid : one * unitOnDecimalGrid = 10 ^ 1074 := by
  unfold one unitOnDecimalGrid
  generalize 1074 = n
  exact (Nat.mul_pow 2 5 n).symm

/-- A decimal number that reads back is at least half a unit. -/
theorem unit_le_of_readsBack {units decimal : Nat} (nonzero : units ≠ 0)
    (h : readsBack units decimal = true) : unitOnDecimalGrid ≤ 2 * decimal := by
  have hbelow := gapBelow_le nonzero
  have hlow : (2 * units - gapBelow units) * unitOnDecimalGrid ≤ 2 * decimal := by
    unfold readsBack at h
    dsimp only at h
    split at h
    · exact (of_decide_eq_true h).1
    · exact Nat.le_of_lt (of_decide_eq_true h).1
  refine Nat.le_trans ?_ hlow
  exact Nat.le_mul_of_pos_left _ (by omega)

/-- Digits that read back are never taken for a number far below the format. -/
theorem scale_le_of_unit_le {coefficient scale decimal grid : Nat} (hgrid : grid ≤ 1074)
    (same : coefficient * 10 ^ grid = decimal * 10 ^ scale)
    (h : 5 ^ grid ≤ 2 * decimal) : scale ≤ 400 + coefficient.log2 := by
  by_contra hlarge
  have hcoefficient : coefficient < 2 ^ (coefficient.log2 + 1) := Nat.lt_log2_self
  have hsplit : (10 : Nat) ^ grid = 2 ^ grid * 5 ^ grid := Nat.mul_pow 2 5 grid
  have hpow : 0 < 5 ^ grid := Nat.pow_pos (by decide)
  -- Without the factor `5 ^ grid`, the coefficient alone has to make up for the scale.
  have hfew : 10 ^ scale ≤ 2 * coefficient * 2 ^ grid := by
    refine Nat.le_of_mul_le_mul_left ?_ hpow
    calc 5 ^ grid * 10 ^ scale ≤ 2 * decimal * 10 ^ scale := Nat.mul_le_mul_right _ h
      _ = 2 * (coefficient * 10 ^ grid) := by rw [same, Nat.mul_assoc]
      _ = 5 ^ grid * (2 * coefficient * 2 ^ grid) := by rw [hsplit]; ring
  have hmany : 2 * coefficient * 2 ^ grid < 10 ^ scale := by
    calc 2 * coefficient * 2 ^ grid < 2 * 2 ^ (coefficient.log2 + 1) * 2 ^ grid :=
          Nat.mul_lt_mul_of_pos_right (by omega) (Nat.two_pow_pos _)
      _ = 2 ^ (coefficient.log2 + 2 + grid) := by ring
      _ ≤ 2 ^ (3 * scale) := Nat.pow_le_pow_right (by decide) (by omega)
      _ = 8 ^ scale := Nat.pow_mul 2 3 scale
      _ ≤ 10 ^ scale := Nat.pow_le_pow_left (by decide) scale
  omega

theorem ofQuotient_eq {num den units : Nat} (negative : Bool) (magnitude : IsMagnitude units)
    (h : roundUnits num den = units) :
    ofQuotient negative num den = finite negative units magnitude := by
  subst h
  exact dif_pos (lt_magnitudeLimit magnitude)

/-- A coefficient with `scale` digits behind the point is read as the magnitude it reads back as. -/
theorem ofDecimal_of_readsBack {units coefficient scale decimal : Nat} (negative : Bool)
    (nonzero : units ≠ 0) (magnitude : IsMagnitude units) (hscale : 0 < scale)
    (same : coefficient * 10 ^ 1074 = decimal * 10 ^ scale)
    (h : readsBack units decimal = true) :
    ofDecimal negative coefficient (-scale) = finite negative units magnitude := by
  have hunit := unit_le_of_readsBack nonzero h
  have hpos := unitOnDecimalGrid_pos
  have hpow : 0 < 10 ^ scale := Nat.pow_pos (by decide)
  have hcoefficient : coefficient ≠ 0 := by
    rintro rfl
    rw [Nat.zero_mul] at same
    have := Nat.mul_pos (by omega : 0 < decimal) hpow
    omega
  have hsmall : scale ≤ 400 + coefficient.log2 := by
    unfold unitOnDecimalGrid at hunit
    generalize hgrid : 1074 = grid at same hunit
    exact scale_le_of_unit_le (Nat.le_of_eq hgrid.symm) same hunit
  unfold ofDecimal
  rw [if_neg hcoefficient, if_neg (by omega), if_neg (by omega), if_neg (by omega), Int.neg_neg,
    Int.toNat_natCast]
  refine ofQuotient_eq negative magnitude (roundUnits_of_readsBack nonzero magnitude hpow ?_ h)
  rw [Nat.mul_assoc, one_mul_unitOnDecimalGrid]
  exact same

/-! ## Whole numbers -/

theorem nearestMultiple_multiple {test : Nat → Bool} {whole step : Nat} (nonzero : whole ≠ 0)
    (pos : 0 < step) (h : test (whole * step) = true) (tie : Tie) :
    ∃ coefficient, nearestMultiple test (whole * step) step tie = some coefficient := by
  have hdiv : whole * step / step = whole := Nat.mul_div_cancel _ pos
  simp only [nearestMultiple, hdiv, h, nonzero, ne_eq, not_false_eq_true, decide_true,
    Bool.and_true]
  cases test ((whole + 1) * step) with
  | false => exact ⟨_, rfl⟩
  | true => exact ⟨_, rfl⟩

/-- A whole number needs no grid finer than the whole numbers. -/
theorem le_grid_of_whole {whole : Nat} (nonzero : whole ≠ 0) (tie : Tie) :
    1074 ≤ (shortest (whole * one) tie).2 := by
  have hexact : whole * one * unitOnDecimalGrid = whole * 10 ^ 1074 := by
    rw [Nat.mul_assoc, one_mul_unitOnDecimalGrid]
  have hreads := readsBack_exact (whole * one)
  obtain ⟨coefficient, hfound⟩ : ∃ coefficient,
      nearestOnGrid (whole * one) 1074 tie = some coefficient := by
    unfold nearestOnGrid
    rw [hexact] at hreads ⊢
    generalize 1074 = grid at hreads ⊢
    exact nearestMultiple_multiple nonzero (Nat.pow_pos (by decide)) hreads tie
  rw [shortest_eq, hexact]
  refine le_coarsestGrid hfound ?_
  have hlog : 3 * 1074 ≤ (whole * 10 ^ 1074).log2 := by
    generalize 1074 = grid
    have hten : 0 < 10 ^ grid := Nat.pow_pos (by decide)
    rw [Nat.le_log2 (Nat.mul_ne_zero nonzero hten.ne'), Nat.pow_mul]
    calc (2 ^ 3) ^ grid ≤ 10 ^ grid := Nat.pow_le_pow_left (by decide) grid
      _ ≤ whole * 10 ^ grid := Nat.le_mul_of_pos_left _ (by omega)
  generalize (whole * 10 ^ 1074).log2 = bits at hlog ⊢
  omega

/-- The gap of a magnitude is a multiple of one, or one is a multiple of the gap. -/
theorem one_dvd_gap_or (units : Nat) : one ∣ magnitudeGap units ∨ magnitudeGap units ∣ one := by
  unfold one magnitudeGap
  generalize 1074 = n
  rcases Nat.le_total n (units.log2 - 52) with hle | hge
  · exact .inl (Nat.pow_dvd_pow 2 hle)
  · exact .inr (Nat.pow_dvd_pow 2 hge)

/-- Rounding a whole number of units keeps it whole. -/
theorem one_dvd_roundUnits (whole : Nat) : one ∣ roundUnits (whole * one) 1 := by
  unfold roundUnits
  dsimp only
  rw [Nat.one_mul]
  rcases one_dvd_gap_or (whole * one / 1) with hwide | hnarrow
  · exact Nat.dvd_mul_left_of_dvd hwide _
  · have hgap : magnitudeGap (whole * one / 1) ∣ whole * one := Nat.dvd_mul_left_of_dvd hnarrow _
    rw [roundQuotient_of_dvd _ (magnitudeGap_pos _) hgap, Nat.div_mul_cancel hgap]
    exact Nat.dvd_mul_left _ _

/-- The whole number that a point of a coarse grid is. -/
def whole (found : Nat × Nat) : Nat := found.1 * Nat.pow 10 (found.2 - 1074)

theorem whole_mul {found : Nat × Nat} (h : 1074 ≤ found.2) :
    whole found * 10 ^ 1074 = found.1 * Nat.pow 10 found.2 := by
  unfold whole
  generalize 1074 = n at h ⊢
  rw [Nat.mul_assoc]
  exact congrArg (found.1 * ·) (Nat.pow_sub_mul_pow 10 h)

/-- A number that needs no grid finer than the whole numbers is whole. -/
theorem whole_of_le_grid {units : Nat} (nonzero : units ≠ 0) (magnitude : IsMagnitude units)
    {tie : Tie} (hle : 1074 ≤ (shortest units tie).2) : one ∣ units := by
  obtain ⟨-, hreads⟩ := shortest_spec nonzero tie
  have hround : roundUnits (whole (shortest units tie) * one) 1 = units := by
    refine roundUnits_of_readsBack nonzero magnitude Nat.one_pos ?_ hreads
    rw [Nat.mul_assoc, one_mul_unitOnDecimalGrid, whole_mul hle, Nat.mul_one]
  rw [← hround]
  exact one_dvd_roundUnits _

/-! ## Literals -/

/-- A sign, digits, a point and digits, which together are read as `x`. -/
def IsLiteralText (x : Binary64) (text : List Char) : Prop :=
  ∃ (negative : Bool) (whole fraction : List Char),
    text = signText negative ++ whole ++ '.' :: fraction ∧ IsDigits whole ∧ IsDigits fraction ∧
      ofDecimal negative (digitsValue (whole ++ fraction)) (-fraction.length) = x

theorem isLiteralText_zero (negative : Bool) :
    IsLiteralText (zero negative) (signText negative ++ ['0', '.', '0']) :=
  ⟨negative, ['0'], ['0'], by simp, ⟨by simp, by simp⟩, ⟨by simp, by simp⟩, rfl⟩

theorem gridText_of_le {found : Nat × Nat} (h : 1074 ≤ found.2) :
    gridText found = toString (whole found) :=
  if_pos h

theorem gridText_of_lt {found : Nat × Nat} (h : found.2 < 1074) :
    gridText found = plainText found.1 (1074 - found.2) :=
  if_neg (Nat.not_le.mpr h)

theorem magnitudeText_eq {units : Nat} (nonzero : units ≠ 0) :
    magnitudeText units = gridText (shortest units .up) :=
  if_neg nonzero

/-- A whole magnitude is written as its digits with a decimal behind. -/
theorem isLiteralText_whole {units : Nat} (negative : Bool) (nonzero : units ≠ 0)
    (magnitude : IsMagnitude units) (hwhole : units % one = 0) :
    IsLiteralText (finite negative units magnitude)
      (signText negative ++ (magnitudeText units ++ ".0").toList) := by
  obtain ⟨count, hcount⟩ := Nat.dvd_of_mod_eq_zero hwhole
  have hgrid : 1074 ≤ (shortest units .up).2 := by
    rw [hcount, Nat.mul_comm]
    refine le_grid_of_whole ?_ .up
    rintro rfl
    exact nonzero (by rw [hcount, Nat.mul_zero])
  obtain ⟨-, hreads⟩ := shortest_spec nonzero .up
  rw [← whole_mul hgrid] at hreads
  rw [magnitudeText_eq nonzero, gridText_of_le hgrid]
  generalize whole (shortest units .up) = value at hreads
  refine ⟨negative, Nat.toDigits 10 value, ['0'], by simp, isDigits_toDigits value,
    ⟨by simp, by simp⟩, ?_⟩
  rw [digitsValue_append, digitsValue_toDigits]
  refine ofDecimal_of_readsBack negative nonzero magnitude (by simp) ?_ hreads
  generalize 10 ^ 1074 = large
  show (10 * value + 0) * large = value * large * 10
  ring

/-- Any other magnitude has digits behind the point already. -/
theorem isLiteralText_fraction {units : Nat} (negative : Bool) (magnitude : IsMagnitude units)
    (hwhole : units % one ≠ 0) :
    IsLiteralText (finite negative units magnitude)
      (signText negative ++ (magnitudeText units).toList) := by
  have nonzero : units ≠ 0 := by
    rintro rfl
    exact hwhole (Nat.zero_mod one)
  have hgrid : (shortest units .up).2 < 1074 := by
    by_contra hle
    exact hwhole (Nat.mod_eq_zero_of_dvd (whole_of_le_grid nonzero magnitude (Nat.not_lt.mp hle)))
  obtain ⟨-, hreads⟩ := shortest_spec nonzero .up
  rw [magnitudeText_eq nonzero, gridText_of_lt hgrid]
  generalize shortest units .up = found at hgrid hreads ⊢
  obtain ⟨digits, fraction, htext, hdigits, hfraction, hlen, hvalue⟩ :=
    plainText_spec found.1 (Nat.sub_pos_of_lt hgrid)
  refine ⟨negative, digits, fraction, by rw [htext, List.append_assoc], hdigits, hfraction, ?_⟩
  rw [hvalue]
  refine ofDecimal_of_readsBack negative nonzero magnitude (by omega) ?_ hreads
  rw [hlen, Nat.mul_assoc]
  generalize 1074 = n at hgrid ⊢
  exact congrArg (found.1 * ·) (by
    rw [Nat.mul_comm]
    exact (Nat.pow_sub_mul_pow 10 (Nat.le_of_lt hgrid)).symm)

/-- The literal of a finite number is that of its magnitude behind its sign. -/
theorem toList_renderLiteral (negative : Bool) (units : Nat) (magnitude : IsMagnitude units) :
    (Value.float (finite negative units magnitude)).renderLiteral.toList =
      signText negative ++ (if units % one = 0 then magnitudeText units ++ ".0"
        else magnitudeText units).toList := by
  cases negative <;> by_cases hwhole : units % one = 0 <;>
    simp [Value.renderLiteral, isWhole, render, signText, hwhole]

/-- The literal of a finite number is read as the same number. -/
theorem isLiteralText_renderLiteral {x : Binary64} (h : x.isFinite = true) :
    IsLiteralText x (Value.float x).renderLiteral.toList := by
  cases x with
  | nan => cases h
  | infinite negative => cases h
  | finite negative units magnitude =>
      rw [toList_renderLiteral]
      split
      · rename_i hwhole
        by_cases nonzero : units = 0
        · subst nonzero
          exact isLiteralText_zero negative
        · exact isLiteralText_whole negative nonzero magnitude hwhole
      · rename_i hwhole
        exact isLiteralText_fraction negative magnitude hwhole

end DataFilter.Binary64
