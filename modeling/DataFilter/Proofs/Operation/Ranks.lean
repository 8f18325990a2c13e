import DataFilter.Proofs.Number.BinaryToDecimal
import DataFilter.Proofs.Operation.Ordering

/-!
# Numbers of two types in one line

Two numbers of different types are compared after a conversion. What the comparison says can be told
by ranks: binary numbers have one rank among the whole numbers, in units of the binary format, and
another one among the decimals, in parts of `10^-28`. A comparison across the types is the
comparison of the ranks, and a comparison of two decimals or of two whole numbers never contradicts
their ranks, although different numbers may share one.

Among the decimals, a binary number has the rank of the decimal that it is turned into. Beyond the
decimals comes `2^96`, which the largest decimals are turned into: they share its rank.
-/

namespace DataFilter

theorem compare_congr {a b c d : Int} (lt : a < b ↔ c < d) (gt : b < a ↔ d < c) :
    compare a b = compare c d := by
  rcases Int.lt_trichotomy a b with less | same | more
  · rw [compare_lt_iff_lt.mpr less, compare_lt_iff_lt.mpr (lt.mp less)]
  · rw [compare_eq_iff_eq.mpr same, compare_eq_iff_eq.mpr (by omega)]
  · rw [compare_gt_iff_gt.mpr more, compare_gt_iff_gt.mpr (gt.mp more)]

/-! ## Signs -/

section Signed

open Binary64

variable {a b : Bool} {m n f g : Nat}

/-- Magnitudes replaced by others in the same order keep their order with their signs. -/
theorem signed_mono (up : m ≤ n → f ≤ g) (down : n ≤ m → g ≤ f) (zero : m = 0 → f = 0)
    (zero' : n = 0 → g = 0) (h : signed a m ≤ signed b n) : signed a f ≤ signed b g := by
  unfold signed at h ⊢
  cases a <;> cases b <;> simp only [Bool.false_eq_true, if_true, if_false] at h ⊢ <;> omega

theorem natAbs_signed (a : Bool) (m : Nat) : (signed a m).natAbs = m := by
  unfold signed
  split <;> omega

theorem compare_signed (up : m < n ↔ f < g) (down : n < m ↔ g < f)
    (zero : m = 0 ∧ n = 0 ↔ f = 0 ∧ g = 0) :
    compare (signed a m) (signed b n) = compare (signed a f) (signed b g) := by
  unfold signed
  cases a <;> cases b <;> simp only [Bool.false_eq_true, if_true, if_false] <;>
    exact compare_congr (by omega) (by omega)

/-- Where the left magnitude is larger, its sign alone decides. -/
theorem compare_signed_of_lt {c : Bool} (larger : n < m) (larger' : g < f) :
    compare (signed a m) (signed b n) = compare (signed a f) (signed c g) := by
  unfold signed
  cases a <;> cases b <;> cases c <;> simp only [Bool.false_eq_true, if_true, if_false] <;>
    exact compare_congr (by omega) (by omega)

end Signed

/-! ## Whole numbers and binary numbers -/

namespace Binary64

/-- A finite number in units. -/
def signedUnits : Binary64 → Int
  | finite negative units _ => signed negative units
  | _ => 0

theorem compare?_of_finite {x y : Binary64} (left : x.isFinite = true) (right : y.isFinite = true) :
    x.compare? y = some (compare x.signedUnits y.signedUnits) := by
  cases x with
  | finite a m hm =>
      cases y with
      | finite b n hn => rfl
      | _ => cases right
  | _ => cases left

theorem AtMost.isFinite {x : Binary64} {bound : Nat} (h : x.AtMost bound) : x.isFinite = true := by
  obtain ⟨negative, units, magnitude, rfl, -⟩ := h
  rfl

/-- The order of whole numbers never contradicts that of their binary numbers. -/
theorem signedUnits_ofInt_mono {m n : Int} (left : (ofInt m).isFinite = true)
    (right : (ofInt n).isFinite = true) (h : m ≤ n) :
    (ofInt m).signedUnits ≤ (ofInt n).signedUnits := by
  cases turned : ofInt m with
  | finite a u hu =>
      cases turned' : ofInt n with
      | finite b v hv => exact ofInt_mono turned turned' h
      | _ => rw [turned'] at right; cases right
  | _ => rw [turned] at left; cases left

end Binary64

/-! ## Decimals and binary numbers -/

namespace Decimal

open Binary64

/-- `2^96` in parts of `10^-28`. -/
def limitParts : Nat := coefficientLimit * 10 ^ 28

/-- A decimal in parts of `10^-28`. -/
def signedParts (d : Decimal) : Int := Binary64.signed d.negative (parts (d.coefficient, d.scale))

theorem signedParts_eq (d : Decimal) : d.signedParts = d.signed * (10 ^ (28 - d.scale) : Nat) := by
  unfold signedParts Binary64.signed signed parts
  split
  · rw [Nat.cast_mul, Int.neg_mul]
  · rw [Nat.cast_mul]

/-- Fractions are in the order of their numerators over a common denominator. -/
theorem scaled_lt_iff {a b p q p' q' whole : Int} (left : p * p' = whole) (right : q * q' = whole)
    (pos : 0 < whole) (pos' : 0 < p' * q') : a * q < b * p ↔ a * p' < b * q' := by
  have hleft : a * q * (p' * q') = a * p' * whole := by rw [← right]; ring
  have hright : b * p * (p' * q') = b * q' * whole := by rw [← left]; ring
  rw [← mul_lt_mul_iff_of_pos_right pos', hleft, hright, mul_lt_mul_iff_of_pos_right pos]

/-- The order of decimals is that of their parts. -/
theorem compare_eq (d e : Decimal) : d.compare e = Ord.compare d.signedParts e.signedParts := by
  have scaled (d : Decimal) : ((10 ^ d.scale : Nat) : Int) * (10 ^ (28 - d.scale) : Nat) =
      (10 ^ 28 : Nat) := by
    rw [← Nat.cast_mul, ← Nat.pow_add, Nat.add_sub_cancel' d.scale_le]
  have pos : (0 : Int) < (10 ^ 28 : Nat) := by decide
  have pos' (d e : Decimal) :
      (0 : Int) < ((10 ^ (28 - d.scale) : Nat) : Int) * (10 ^ (28 - e.scale) : Nat) := by
    positivity
  rw [signedParts_eq, signedParts_eq]
  exact compare_congr (scaled_lt_iff (scaled d) (scaled e) pos (pos' d e))
    (scaled_lt_iff (scaled e) (scaled d) pos (pos' e d))

/-- The decimal is among the largest ones, which are turned into `2^96` or `-2^96`. -/
def IsTop (d : Decimal) : Prop :=
  d.scale = 0 ∧ coefficientLimit * one ≤ roundUnits (d.coefficient * one) 1

/-- The magnitude of the rank of a decimal: its parts, or those of `2^96`. -/
noncomputable def rankParts (d : Decimal) : Nat :=
  open Classical in if d.IsTop then limitParts else parts (d.coefficient, d.scale)

/-- The rank of a decimal among the binary numbers. -/
noncomputable def rank (d : Decimal) : Int := Binary64.signed d.negative d.rankParts

section Rank

variable {d e : Decimal}

theorem rankParts_of_top (h : d.IsTop) : d.rankParts = limitParts := if_pos h

theorem rankParts_of_not_top (h : ¬d.IsTop) : d.rankParts = parts (d.coefficient, d.scale) :=
  if_neg h

theorem parts_lt (d : Decimal) : parts (d.coefficient, d.scale) < limitParts := by
  calc d.coefficient * 10 ^ (28 - d.scale) ≤ d.coefficient * 10 ^ 28 :=
        Nat.mul_le_mul_left _ (Nat.pow_le_pow_right (by decide) (Nat.sub_le 28 _))
    _ < limitParts := Nat.mul_lt_mul_of_pos_right d.coefficient_lt (by decide)

theorem rankParts_le (d : Decimal) : d.rankParts ≤ limitParts := by
  by_cases top : d.IsTop
  · exact Nat.le_of_eq (rankParts_of_top top)
  · rw [rankParts_of_not_top top]
    exact Nat.le_of_lt d.parts_lt

/-- The largest decimals have no decimals, and are larger than half the limit. -/
theorem IsTop.half_lt (h : d.IsTop) : 2 ^ 95 < d.coefficient := by
  refine Nat.lt_of_not_le fun small => ?_
  have scaled : d.coefficient * one ≤ 2 ^ 95 * one * 1 := by
    rw [Nat.mul_one]
    exact Nat.mul_le_mul_right one small
  have limit : coefficientLimit * one ≤ 2 ^ 95 * one :=
    Nat.le_trans h.2 (roundUnits_le Nat.one_pos (magnitudeGap_dvd_power 95) scaled)
  exact absurd (Nat.le_of_mul_le_mul_right limit Binary64.one_pos) (by decide)

/-- What is larger than one of the largest decimals is one as well. -/
theorem IsTop.mono (h : d.IsTop)
    (le : parts (d.coefficient, d.scale) ≤ parts (e.coefficient, e.scale)) : e.IsTop := by
  have large := h.half_lt
  have limit := e.coefficient_lt
  unfold coefficientLimit at limit
  simp only [parts, h.1, Nat.sub_zero] at le
  have whole : e.scale = 0 := by
    refine Classical.byContradiction fun fraction => ?_
    have fewer : 10 ^ (28 - e.scale) ≤ 10 ^ 27 := Nat.pow_le_pow_right (by decide) (by omega)
    have small := Nat.mul_le_mul_left e.coefficient fewer
    omega
  rw [whole, Nat.sub_zero] at le
  refine ⟨whole, Nat.le_trans h.2 (roundUnits_mono Nat.one_pos (Nat.mul_le_mul_right one ?_))⟩
  omega

theorem rankParts_mono (h : parts (d.coefficient, d.scale) ≤ parts (e.coefficient, e.scale)) :
    d.rankParts ≤ e.rankParts := by
  by_cases top : e.IsTop
  · rw [rankParts_of_top top]
    exact d.rankParts_le
  · rw [rankParts_of_not_top top, rankParts_of_not_top (mt (fun h' => IsTop.mono h' h) top)]
    exact h

theorem rankParts_eq_zero (h : parts (d.coefficient, d.scale) = 0) : d.rankParts = 0 := by
  rw [rankParts_of_not_top fun top => ?_, h]
  have zero : d.coefficient = 0 :=
    (Nat.mul_eq_zero.mp h).resolve_right (Nat.pow_pos (by decide)).ne'
  have := top.half_lt
  omega

theorem natAbs_rank_le (d : Decimal) : d.rank.natAbs ≤ limitParts := by
  rw [rank, DataFilter.natAbs_signed]
  exact d.rankParts_le

/-- The order of decimals never contradicts their ranks. -/
theorem rank_mono (h : d.signedParts ≤ e.signedParts) : d.rank ≤ e.rank :=
  signed_mono rankParts_mono rankParts_mono rankParts_eq_zero rankParts_eq_zero h

end Rank

/-! ## The binary numbers of decimals -/

section ToBinary

variable {d : Decimal}

/-- The largest decimals are all turned into the first number beyond them. -/
theorem toBinary64_of_top (top : d.IsTop) :
    ∃ units isMagnitude, d.toBinary64 = finite d.negative units isMagnitude ∧
      units = coefficientLimit * one := by
  have half := top.half_lt
  have bounded := atMost_toBinary64 d
  rw [toBinary64_of_scale_zero top.1] at bounded ⊢
  obtain ⟨negative, units, magnitude, found, small⟩ := bounded
  obtain ⟨sign, rounded, -⟩ := eq_of_ofInt found
  rw [natAbs_signed] at rounded
  have limit : 2 ^ 96 = coefficientLimit := rfl
  rw [limit] at small
  have same : units = coefficientLimit * one := by
    refine Nat.le_antisymm small ?_
    rw [rounded]
    exact top.2
  have sign' : d.negative = decide (d.signed < 0) := by
    unfold signed
    cases d.negative with
    | false => simp
    | true => simp; omega
  rw [sign, ← sign'] at found
  exact ⟨units, magnitude, found, same⟩

/-- All other decimals stay below. -/
theorem toBinary64_of_not_top (below : ¬d.IsTop) :
    ∃ negative units isMagnitude, d.toBinary64 = finite negative units isMagnitude ∧
      units < coefficientLimit * one := by
  by_cases fraction : d.scale = 0
  · have bounded := atMost_toBinary64 d
    rw [toBinary64_of_scale_zero fraction] at bounded ⊢
    obtain ⟨negative, units, magnitude, found, -⟩ := bounded
    obtain ⟨-, rounded, -⟩ := eq_of_ofInt found
    rw [natAbs_signed] at rounded
    exact ⟨negative, units, magnitude, found,
      Nat.lt_of_not_le fun le => below ⟨fraction, rounded ▸ le⟩⟩
  · obtain ⟨negative, units, magnitude, found, small⟩ := atMost_toBinary64_of_scale fraction
    exact ⟨negative, units, magnitude, found, Nat.lt_of_le_of_lt small
      (Nat.mul_lt_mul_of_pos_right (by decide) Binary64.one_pos)⟩

end ToBinary

/-! ## The decimals of binary numbers -/

section OfBinary

variable {units : Nat} {r : Nat × Nat}

theorem parts_of_zero (found : ofMagnitude? 0 = some r) : parts r = 0 := by
  have small : 0 < 2 ^ 52 * one := Nat.mul_pos (by decide) Binary64.one_pos
  obtain ⟨r', fraction, found', -, -, settled, below, -⟩ :=
    ofMagnitude?_of_small isMagnitude_zero small
  rw [Nat.zero_mul] at below
  rw [Option.some.inj (found.symm.trans found'), settled, Nat.le_zero.mp below]
  exact Nat.le_zero.mp (settledParts_mono (by rw [Nat.zero_mul]; exact Nat.zero_le _ :
    0 * 10 ^ 0 ≤ 0 * 10 ^ 1074))

theorem ofBinary64?_of_some (negative : Bool) (magnitude : IsMagnitude units)
    (found : ofMagnitude? units = some r) :
    ∃ q, ofBinary64? (finite negative units magnitude) = some q ∧ q.negative = negative ∧
      parts (q.coefficient, q.scale) = parts r := by
  by_cases zero : units = 0
  · subst zero
    refine ⟨⟨negative, 0, 0, by decide, by decide⟩, rfl, rfl, ?_⟩
    rw [parts_of_zero found]
    exact Nat.zero_mul _
  · have fits := fits_of_ofMagnitude? magnitude found
    refine ⟨⟨negative, r.1, r.2, fits.1, fits.2⟩, ?_, rfl, rfl⟩
    rw [ofBinary64?, if_neg zero, found]
    simp only [Option.bind_eq_bind, Option.bind_some, ofParts?, fits, and_self, dite_true]

theorem ofBinary64?_of_none (negative : Bool) (magnitude : IsMagnitude units)
    (missing : ofMagnitude? units = none) :
    ofBinary64? (finite negative units magnitude) = none := by
  have zero : units ≠ 0 := by
    rintro rfl
    have large := (ofMagnitude?_eq_none_iff magnitude).mp missing
    exact absurd large (Nat.not_le.mpr (Nat.mul_pos (by decide) Binary64.one_pos))
  rw [ofBinary64?, if_neg zero, missing]
  rfl

end OfBinary

end Decimal

namespace Binary64

open Decimal

/-- The magnitude of the rank of a binary number among the decimals: the parts of its decimal, or
`2^96` and what it has beyond. -/
def rankParts (units : Nat) : Nat :=
  ((ofMagnitude? units).map parts).getD (limitParts + (units - coefficientLimit * one))

/-- The rank of a finite number among the decimals. -/
def rank : Binary64 → Int
  | finite negative units _ => signed negative (rankParts units)
  | _ => 0

section Rank

variable {u v : Nat} {r : Nat × Nat}

theorem rankParts_of_some (found : ofMagnitude? u = some r) : rankParts u = parts r := by
  rw [rankParts, found, Option.map_some, Option.getD_some]

theorem rankParts_of_none (missing : ofMagnitude? u = none) :
    rankParts u = limitParts + (u - coefficientLimit * one) := by
  rw [rankParts, missing, Option.map_none, Option.getD_none]

theorem parts_lt_limitParts (magnitude : IsMagnitude u)
    (found : ofMagnitude? u = some r) : parts r < limitParts := by
  obtain ⟨whole, fits, -, le⟩ := exists_whole magnitude found
  exact Nat.lt_of_le_of_lt le (Nat.mul_lt_mul_of_pos_right fits (by decide))

theorem rankParts_mono (left : IsMagnitude u) (right : IsMagnitude v) (h : u ≤ v) :
    rankParts u ≤ rankParts v := by
  cases found : ofMagnitude? u with
  | some r =>
      have below := parts_lt_limitParts left found
      rw [rankParts_of_some found]
      cases found' : ofMagnitude? v with
      | some t =>
          rw [rankParts_of_some found']
          exact parts_mono left right h found found'
      | none =>
          rw [rankParts_of_none found']
          omega
  | none =>
      have large := (ofMagnitude?_eq_none_iff left).mp found
      have found' := (ofMagnitude?_eq_none_iff right).mpr (Nat.le_trans large h)
      rw [rankParts_of_none found, rankParts_of_none found']
      exact Nat.add_le_add_left (Nat.sub_le_sub_right h _) _

theorem rankParts_zero : rankParts 0 = 0 := by
  cases found : ofMagnitude? 0 with
  | some r => rw [rankParts_of_some found, parts_of_zero found]
  | none =>
      have large := (ofMagnitude?_eq_none_iff isMagnitude_zero).mp found
      exact absurd large (Nat.not_le.mpr (Nat.mul_pos (by decide) Binary64.one_pos))

/-- The order of binary numbers never contradicts their ranks. -/
theorem rank_mono {x y : Binary64} (left : x.isFinite = true) (right : y.isFinite = true)
    (h : x.signedUnits ≤ y.signedUnits) : x.rank ≤ y.rank := by
  cases x with
  | finite a m hm =>
      cases y with
      | finite b n hn =>
          have zero (h : m = 0) : rankParts m = 0 := by rw [h, rankParts_zero]
          have zero' (h : n = 0) : rankParts n = 0 := by rw [h, rankParts_zero]
          exact signed_mono (rankParts_mono hm hn) (rankParts_mono hn hm) zero zero' h
      | _ => cases right
  | _ => cases left

/-- Beyond `2^96` the ranks are beyond those of all decimals. -/
theorem limitParts_lt_rank {x : Binary64} (finite : x.isFinite = true)
    (missing : ofBinary64? x = none)
    (outside : x.signedUnits.natAbs ≠ coefficientLimit * one) : limitParts < x.rank.natAbs := by
  cases x with
  | finite a n hn =>
      rw [signedUnits, DataFilter.natAbs_signed] at outside
      rw [rank, DataFilter.natAbs_signed]
      cases found : ofMagnitude? n with
      | some r =>
          obtain ⟨q, exact, -⟩ := ofBinary64?_of_some a hn found
          rw [exact] at missing
          cases missing
      | none =>
          have large := (ofMagnitude?_eq_none_iff hn).mp found
          rw [rankParts_of_none found]
          omega
  | _ => cases finite

end Rank

end Binary64

namespace Value

open Binary64 Decimal

/-- A binary number that is turned into a decimal stays below the largest decimals. -/
theorem parts_lt_of_top {d : Decimal} {units : Nat} {r : Nat × Nat} (top : d.IsTop)
    (magnitude : IsMagnitude units) (found : ofMagnitude? units = some r) :
    parts r < parts (d.coefficient, d.scale) := by
  obtain ⟨whole, fits, dvd, le⟩ := exists_whole magnitude found
  have below : whole < d.coefficient := by
    refine Nat.lt_of_not_le fun small => ?_
    have scaled : d.coefficient * one ≤ whole * one * 1 := by
      rw [Nat.mul_one]
      exact Nat.mul_le_mul_right one small
    have limit : coefficientLimit * one ≤ whole * one :=
      Nat.le_trans top.2 (roundUnits_le Nat.one_pos dvd scaled)
    exact absurd (Nat.le_of_mul_le_mul_right limit Binary64.one_pos) (Nat.not_le.mpr fits)
  simp only [parts, top.1, Nat.sub_zero]
  exact Nat.lt_of_le_of_lt le (Nat.mul_lt_mul_of_pos_right below (by decide))

/-- A binary number and a decimal are compared by their ranks. -/
theorem compareFloatDecimal?_eq {x : Binary64} (isFinite : x.isFinite = true) (d : Decimal) :
    compareFloatDecimal? x d = some (compare x.rank d.rank) := by
  cases x with
  | finite a u hu =>
      show _ = some (compare (signed a (Binary64.rankParts u)) d.rank)
      unfold compareFloatDecimal?
      cases found : ofMagnitude? u with
      | some r =>
          obtain ⟨q, exact, sign, same⟩ := ofBinary64?_of_some a hu found
          rw [exact, rankParts_of_some found]
          dsimp only
          rw [Decimal.compare_eq, signedParts, sign, same]
          refine congrArg some ?_
          by_cases top : d.IsTop
          · have below := parts_lt_of_top top hu found
            have limit := d.parts_lt
            rw [Decimal.rank, rankParts_of_top top, signedParts]
            exact compare_signed (by omega) (by omega) (by omega)
          · rw [Decimal.rank, rankParts_of_not_top top, signedParts]
      | none =>
          have large := (ofMagnitude?_eq_none_iff hu).mp found
          rw [ofBinary64?_of_none a hu found, rankParts_of_none found]
          dsimp only
          by_cases top : d.IsTop
          · obtain ⟨units, magnitude, turned, same⟩ := toBinary64_of_top top
            rw [turned, Decimal.rank, rankParts_of_top top]
            have positive := Nat.mul_pos (by decide : 0 < coefficientLimit) Binary64.one_pos
            have limit := Nat.lt_of_le_of_lt (Nat.zero_le _) d.parts_lt
            show some (compare (signed a u) (signed d.negative units)) = _
            refine congrArg some (compare_signed ?_ ?_ ?_)
            · omega
            · omega
            · omega
          · obtain ⟨b, units, magnitude, turned, below⟩ := toBinary64_of_not_top top
            have limit := d.parts_lt
            rw [turned, Decimal.rank, rankParts_of_not_top top]
            exact congrArg some (compare_signed_of_lt (by omega) (by omega))
  | _ => cases isFinite

end Value

end DataFilter
