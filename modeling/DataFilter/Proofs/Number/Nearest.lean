import DataFilter.Number.Binary64.Shortest
import Mathlib.Tactic.Linarith
import Mathlib.Tactic.Ring

/-!
# A decimal number between the halfway points is rounded back

`Binary64.readsBack` compares a decimal number with the halfway points around a magnitude, and
reading decimal text rounds an exact quotient. The two agree: a quotient between the halfway points
is rounded to the magnitude. Only below a power of two the quotient may lie where the gap between
magnitudes is half as wide, and there the halfway point is half as far.
-/

namespace DataFilter

/-! ## Rounding to a multiple -/

/-- A quotient is rounded to `m` if it lies within a half of it; exactly a half away, if `m` is
even. -/
theorem roundQuotient_eq {num den m : Nat} (pos : 0 < den) (lower : 2 * m * den ≤ 2 * num + den)
    (upper : 2 * num ≤ 2 * m * den + den)
    (odd : m % 2 = 1 → 2 * m * den < 2 * num + den ∧ 2 * num < 2 * m * den + den) :
    roundQuotient num den .toEven = m := by
  have hsplit := Nat.div_add_mod num den
  have hmod := Nat.mod_lt num pos
  rw [Nat.mul_assoc, Nat.mul_comm m den] at lower upper odd
  -- the quotient is cut to `m`, or to the number below it if it lies below `m`
  rcases Nat.lt_or_ge num (den * m) with hlt | hge
  · obtain ⟨k, rfl⟩ : ∃ k, m = k + 1 := ⟨m - 1, by
      rcases Nat.eq_zero_or_pos m with rfl | h
      · simp at hlt
      · omega⟩
    rw [Nat.mul_succ] at lower upper odd hlt
    have hdiv : num / den = k := by
      refine Nat.div_eq_of_lt_le ?_ ?_
      · rw [Nat.mul_comm]; omega
      · rw [Nat.add_mul, Nat.one_mul, Nat.mul_comm]; exact hlt
    rw [hdiv] at hsplit
    unfold roundQuotient
    simp only [hdiv]
    rw [if_neg (by omega)]
    split
    · rfl
    · rw [if_neg (by omega)]
  · have hdiv : num / den = m := by
      refine Nat.div_eq_of_lt_le ?_ ?_
      · rw [Nat.mul_comm]; exact hge
      · rw [Nat.add_mul, Nat.one_mul, Nat.mul_comm]; omega
    rw [hdiv] at hsplit
    unfold roundQuotient
    simp only [hdiv]
    split
    · rfl
    · rw [if_neg (by omega), if_pos (by omega)]

/-! ## Magnitudes and gaps -/

theorem magnitudeGap_pos (units : Nat) : 0 < magnitudeGap units := Nat.two_pow_pos _

theorem magnitudeGap_le {units : Nat} (h : units ≠ 0) : magnitudeGap units ≤ units :=
  Nat.le_trans (Nat.pow_le_pow_right (by decide) (Nat.sub_le _ _)) (Nat.log2_self_le h)

theorem gap_dvd_of_isMagnitude {units : Nat} (h : IsMagnitude units) :
    magnitudeGap units ∣ units := by
  obtain ⟨significand, exponent, hsig, -, rfl⟩ := h
  rcases Nat.eq_zero_or_pos significand with rfl | hpos
  · simp
  refine Nat.dvd_mul_left_of_dvd (Nat.pow_dvd_pow 2 ?_) significand
  have hlog : (significand * 2 ^ exponent).log2 < 53 + exponent := by
    rw [Nat.log2_lt (Nat.mul_ne_zero (by omega) (Nat.two_pow_pos _).ne'), Nat.pow_add]
    exact Nat.mul_lt_mul_of_pos_right hsig (Nat.two_pow_pos _)
  show (significand * 2 ^ exponent).log2 - 52 ≤ exponent
  omega

theorem lt_magnitudeLimit {units : Nat} (h : IsMagnitude units) : units < magnitudeLimit := by
  obtain ⟨significand, exponent, hsig, hexp, rfl⟩ := h
  have hbits : 53 + exponent ≤ 2098 := by omega
  unfold magnitudeLimit
  generalize 2098 = bits at hbits
  calc significand * 2 ^ exponent < 2 ^ 53 * 2 ^ exponent :=
        Nat.mul_lt_mul_of_pos_right hsig (Nat.two_pow_pos _)
    _ = 2 ^ (53 + exponent) := (Nat.pow_add 2 53 exponent).symm
    _ ≤ 2 ^ bits := Nat.pow_le_pow_right (by decide) hbits

/-- Two different multiples of a gap are a gap apart. -/
theorem add_gap_le {gap a b : Nat} (ha : gap ∣ a) (hb : gap ∣ b) (lt : a < b) : a + gap ≤ b := by
  by_contra h
  have := Nat.le_of_lt_add_of_dvd (by omega : b < a + gap) hb ha
  omega

theorem gapBelow_eq_half {units : Nat} (power : units = 2 ^ units.log2)
    (wide : 1 < magnitudeGap units) : Binary64.gapBelow units = magnitudeGap units / 2 :=
  if_pos ⟨power, wide⟩

theorem gapBelow_eq_gap {units : Nat} (h : ¬(units = 2 ^ units.log2 ∧ 1 < magnitudeGap units)) :
    Binary64.gapBelow units = magnitudeGap units :=
  if_neg h

theorem gapBelow_le {units : Nat} (h : units ≠ 0) : Binary64.gapBelow units ≤ units := by
  have := magnitudeGap_le h
  unfold Binary64.gapBelow
  dsimp only
  split <;> omega

theorem log2_le_of_narrow {units : Nat} (h : ¬1 < magnitudeGap units) : units.log2 ≤ 52 := by
  by_contra hlog
  have : 2 ^ 1 ≤ magnitudeGap units := Nat.pow_le_pow_right (by decide) (by omega)
  omega

theorem magnitudeGap_of_log2 {units bits : Nat} (h : units.log2 = bits + 52) :
    magnitudeGap units = 2 ^ bits := by
  show 2 ^ (units.log2 - 52) = 2 ^ bits
  rw [h, Nat.add_sub_cancel]

theorem log2_eq_of_bounds {n bits : Nat} (lower : 2 ^ bits ≤ n) (upper : n < 2 ^ (bits + 1)) :
    n.log2 = bits := by
  have := Nat.two_pow_pos bits
  exact (Nat.log2_eq_iff (by omega)).mpr ⟨lower, upper⟩

/-! ## The gap at a quotient

Rounding takes the gap at the whole part of the quotient, the halfway points are taken from the gaps
at the magnitude. -/

section Round

variable {units num den : Nat}

/-- Whole parts with the same highest bit have the same gap. -/
theorem magnitudeGap_congr {a b : Nat} (h : a.log2 = b.log2) : magnitudeGap a = magnitudeGap b := by
  rw [magnitudeGap, h, magnitudeGap]

/-- Above a magnitude, up to the next halfway point, the gap is that of the magnitude. -/
theorem gap_of_ge (nonzero : units ≠ 0) (dvd : magnitudeGap units ∣ units) (pos : 0 < den)
    (ge : units * den ≤ num) (upper : 2 * num ≤ 2 * units * den + magnitudeGap units * den) :
    magnitudeGap (num / den) = magnitudeGap units := by
  have hgap : 0 < magnitudeGap units := magnitudeGap_pos units
  -- The next power of two is a multiple of the gap as well, so it is a whole gap away.
  have hnext : units + magnitudeGap units ≤ 2 ^ (units.log2 + 1) :=
    add_gap_le dvd (Nat.pow_dvd_pow 2 (by omega)) Nat.lt_log2_self
  refine magnitudeGap_congr (log2_eq_of_bounds ?_ ?_)
  · exact Nat.le_trans (Nat.log2_self_le nonzero) ((Nat.le_div_iff_mul_le pos).mpr ge)
  · rw [Nat.div_lt_iff_lt_mul pos]
    nlinarith

/-- Below a power of two with a wide gap, down to the halfway point, the gap is half as wide. -/
theorem gap_below_power (power : units = 2 ^ units.log2) (wide : 1 < magnitudeGap units)
    (pos : 0 < den) (lt : num < units * den)
    (lower : 2 * units * den ≤ 2 * num + Binary64.gapBelow units * den) :
    2 * magnitudeGap (num / den) = magnitudeGap units := by
  have nonzero : units ≠ 0 := by
    rw [power]
    exact (Nat.two_pow_pos _).ne'
  obtain ⟨e, he⟩ : ∃ e, units.log2 = e + 1 + 52 := ⟨units.log2 - 53, by
    have : ¬units.log2 ≤ 52 := fun h => absurd wide (by
      simp [magnitudeGap, Nat.sub_eq_zero_of_le h])
    omega⟩
  have hhalf : units = 2 * 2 ^ (e + 52) := by
    calc units = 2 ^ units.log2 := power
      _ = 2 * 2 ^ (e + 52) := by rw [he, Nat.add_right_comm, Nat.pow_succ']
  have hlog : (num / den).log2 = e + 52 := by
    refine log2_eq_of_bounds ?_ ?_
    · rw [Nat.le_div_iff_mul_le pos]
      have hbelow := Nat.mul_le_mul_right den (gapBelow_le nonzero)
      rw [hhalf] at lower hbelow
      nlinarith
    · rw [Nat.pow_succ', ← hhalf]
      exact (Nat.div_lt_iff_lt_mul pos).mpr lt
  rw [magnitudeGap_of_log2 hlog, magnitudeGap_of_log2 he, Nat.pow_succ']

/-- Below any other magnitude, down to the halfway point, the gap is that of the magnitude. -/
theorem gap_of_lt (nonzero : units ≠ 0) (dvd : magnitudeGap units ∣ units)
    (usual : ¬(units = 2 ^ units.log2 ∧ 1 < magnitudeGap units)) (pos : 0 < den)
    (lt : num < units * den)
    (lower : 2 * units * den ≤ 2 * num + Binary64.gapBelow units * den) :
    magnitudeGap (num / den) = magnitudeGap units := by
  have hq : num / den < units := (Nat.div_lt_iff_lt_mul pos).mpr lt
  rw [gapBelow_eq_gap usual] at lower
  by_cases wide : 1 < magnitudeGap units
  · -- The magnitude is at least one gap above the power of two below it.
    have hprev : 2 ^ units.log2 + magnitudeGap units ≤ units :=
      add_gap_le (Nat.pow_dvd_pow 2 (by omega)) dvd
        (Nat.lt_of_le_of_ne (Nat.log2_self_le nonzero) fun h => usual ⟨h.symm, wide⟩)
    refine magnitudeGap_congr (log2_eq_of_bounds ?_ (Nat.lt_trans hq Nat.lt_log2_self))
    rw [Nat.le_div_iff_mul_le pos]
    nlinarith [Nat.mul_le_mul_right den hprev]
  · have hlog : units.log2 ≤ 52 := log2_le_of_narrow wide
    have hlogq : (num / den).log2 ≤ 52 := by
      rcases Nat.eq_zero_or_pos (num / den) with h0 | hpos
      · rw [h0]; decide
      · refine Nat.le_of_lt_succ ((Nat.log2_lt (by omega)).mpr ?_)
        exact Nat.lt_of_lt_of_le (Nat.lt_trans hq Nat.lt_log2_self)
          (Nat.pow_le_pow_right (by decide) (by omega))
    show 2 ^ ((num / den).log2 - 52) = 2 ^ (units.log2 - 52)
    rw [Nat.sub_eq_zero_of_le hlogq, Nat.sub_eq_zero_of_le hlog]

/-- A quotient between the halfway points is rounded to the magnitude. The halfway points belong to
an even magnitude. -/
theorem roundUnits_eq (nonzero : units ≠ 0) (dvd : magnitudeGap units ∣ units) (pos : 0 < den)
    (lower : 2 * units * den ≤ 2 * num + Binary64.gapBelow units * den)
    (upper : 2 * num ≤ 2 * units * den + magnitudeGap units * den)
    (odd : units / magnitudeGap units % 2 = 1 →
      2 * units * den < 2 * num + Binary64.gapBelow units * den ∧
        2 * num < 2 * units * den + magnitudeGap units * den) :
    roundUnits num den = units := by
  obtain ⟨k, hk⟩ := dvd
  have hgap := magnitudeGap_pos units
  have hdiv : units / magnitudeGap units = k := Nat.div_eq_of_eq_mul_right hgap hk
  rw [hdiv] at odd
  have hscaled : 2 * k * (den * magnitudeGap units) = 2 * units * den := by
    conv_rhs => rw [hk]
    ring
  have hbelow : Binary64.gapBelow units ≤ magnitudeGap units := by
    unfold Binary64.gapBelow
    dsimp only
    split <;> omega
  have hbelow' := Nat.mul_le_mul_right den hbelow
  -- where the gap of the quotient is that of the magnitude, it is rounded to a multiple of it
  have same (h : magnitudeGap (num / den) = magnitudeGap units) :
      roundUnits num den = units := by
    simp only [roundUnits, h]
    rw [roundQuotient_eq (m := k) (Nat.mul_pos pos hgap), Nat.mul_comm, ← hk]
    · rw [hscaled, Nat.mul_comm den]
      omega
    · rw [hscaled, Nat.mul_comm den]
      exact upper
    · intro hodd
      rw [hscaled, Nat.mul_comm den]
      have := odd hodd
      omega
  rcases Nat.lt_or_ge num (units * den) with lt | ge
  · by_cases power : units = 2 ^ units.log2 ∧ 1 < magnitudeGap units
    · -- below a power of two the gap is a half, and the magnitude is an even multiple of it
      have half := gap_below_power power.1 power.2 pos lt lower
      have hsmall : Binary64.gapBelow units = magnitudeGap (num / den) := by
        rw [gapBelow_eq_half power.1 power.2, ← half, Nat.mul_div_cancel_left _ (by decide)]
      have hpos := magnitudeGap_pos (num / den)
      simp only [roundUnits]
      generalize magnitudeGap (num / den) = gap at half hsmall hpos
      have hunits : 2 * k * gap = units := by
        conv_rhs => rw [hk, ← half]
        ring
      have hscaled' : 2 * (2 * k) * (den * gap) = 2 * units * den := by
        rw [← hunits]
        ring
      rw [hsmall] at lower
      rw [roundQuotient_eq (m := 2 * k) (Nat.mul_pos pos hpos), hunits]
      · rw [hscaled', Nat.mul_comm den]
        exact lower
      · rw [hscaled', Nat.mul_assoc]
        omega
      · omega
    · exact same (gap_of_lt nonzero ⟨k, hk⟩ power pos lt lower)
  · exact same (gap_of_ge nonzero ⟨k, hk⟩ pos ge upper)

end Round

namespace Binary64

section Scale

variable {a b c d s t : Nat}

theorem scaled_le (ht : 0 < t) (hc : c * t = a * s) (hd : d * t = b * s) (h : a ≤ b) : c ≤ d :=
  Nat.le_of_mul_le_mul_right (by rw [hc, hd]; exact Nat.mul_le_mul_right s h) ht

theorem scaled_lt (hs : 0 < s) (hc : c * t = a * s) (hd : d * t = b * s) (h : a < b) : c < d :=
  Nat.lt_of_mul_lt_mul_right (a := t) (by rw [hc, hd]; exact Nat.mul_lt_mul_of_pos_right h hs)

end Scale

theorem one_pos : 0 < one := by
  unfold one
  generalize 1074 = n
  exact Nat.two_pow_pos n

theorem unitOnDecimalGrid_pos : 0 < unitOnDecimalGrid := by
  unfold unitOnDecimalGrid
  generalize 1074 = n
  exact Nat.pow_pos (by decide)

/-- What reads back as a magnitude is rounded to it, in whatever fraction it is written. -/
theorem roundUnits_of_readsBack {units decimal num den : Nat} (nonzero : units ≠ 0)
    (magnitude : IsMagnitude units) (pos : 0 < den)
    (same : num * unitOnDecimalGrid = decimal * den) (h : readsBack units decimal = true) :
    roundUnits num den = units := by
  unfold readsBack at h
  dsimp only at h
  have hbelow := gapBelow_le nonzero
  have hunit := unitOnDecimalGrid_pos
  generalize unitOnDecimalGrid = unit at h same hunit
  have hnum : 2 * num * unit = 2 * decimal * den := by rw [Nat.mul_assoc, same]; ring
  have hlower : (2 * units - gapBelow units) * den * unit =
      (2 * units - gapBelow units) * unit * den := by ring
  have hupper : (2 * units + magnitudeGap units) * den * unit =
      (2 * units + magnitudeGap units) * unit * den := by ring
  have hsub : (2 * units - gapBelow units) * den + gapBelow units * den = 2 * units * den := by
    rw [← Nat.add_mul]
    congr 1
    omega
  have hadd : (2 * units + magnitudeGap units) * den =
      2 * units * den + magnitudeGap units * den := Nat.add_mul _ _ _
  -- an even magnitude reads back from the halfway points too
  split at h
  · rename_i even
    obtain ⟨hl, hu⟩ := of_decide_eq_true h
    have hl' := scaled_le hunit hlower hnum hl
    have hu' := scaled_le hunit hnum hupper hu
    refine roundUnits_eq nonzero (gap_dvd_of_isMagnitude magnitude) pos ?_ ?_ ?_
    · omega
    · omega
    · intro odd
      omega
  · obtain ⟨hl, hu⟩ := of_decide_eq_true h
    have hl' := scaled_lt pos hlower hnum hl
    have hu' := scaled_lt pos hnum hupper hu
    refine roundUnits_eq nonzero (gap_dvd_of_isMagnitude magnitude) pos ?_ ?_ ?_
    · omega
    · omega
    · intro _
      omega

end Binary64

end DataFilter
