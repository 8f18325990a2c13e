import DataFilter.Proofs.Node.Filling
import DataFilter.Proofs.Operation.Transitivity
import DataFilter.Proofs.Operation.WholeNumbers

/-!
# Parameters of whole numbers

A placeholder of a whole number takes numbers of every type, if they are whole and in range; then it
is filled by the same number. The limits are compared in the binary format, where the greatest whole
number is rounded up, and still no number beyond them is taken for one of them
(`Binary64.toInteger?_eq`). What is taken is told by the exact amount of a number. Everything else
is refused but NULL, which fills every placeholder.
-/

namespace DataFilter

open Integer (Fits)

/-! ## Binary numbers -/

namespace Binary64

open Integer (least greatest)

theorem signedUnits_least :
    (ofInt least.toInt).isFinite = true ∧
      (ofInt least.toInt).signedUnits = -9223372036854775808 * one := by
  decide +kernel

/-- In the binary format the greatest whole number is rounded up. -/
theorem signedUnits_greatest :
    (ofInt greatest.toInt).isFinite = true ∧
      (ofInt greatest.toInt).signedUnits = 9223372036854775808 * one := by
  decide +kernel

/-- Between the limits of the binary format lie the whole numbers of the language and no others. -/
theorem isBetweenLimits_iff {x : Binary64} (finite : x.isFinite = true) {n : Int}
    (whole : x.signedUnits = n * one) : x.isBetweenLimits = true ↔ Fits n := by
  have pos : (0 : Int) < one := Int.natCast_pos.mpr one_pos
  unfold isBetweenLimits
  rw [compare?_of_finite finite signedUnits_least.1,
    compare?_of_finite finite signedUnits_greatest.1, signedUnits_least.2, signedUnits_greatest.2,
    whole, Option.any_some, Option.any_some, Bool.and_eq_true, Int.isGE_compare,
    Ordering.isLT_iff_eq_lt, compare_lt_iff_lt, mul_le_mul_iff_of_pos_right pos,
    mul_lt_mul_iff_of_pos_right pos]
  rfl

/-- The sign of a whole number may be set before or after dividing. -/
theorem signed_eq_mul_one {negative : Bool} {units : Nat} (whole : units % one = 0) :
    signed negative units = signed negative (units / one) * one := by
  have split : (units : Int) = (units / one : Nat) * one := by
    rw [← Nat.cast_mul, Nat.div_mul_cancel (Nat.dvd_of_mod_eq_zero whole)]
  unfold signed
  split_ifs
  · rw [Int.neg_mul, ← split]
  · exact split

/-- A binary number is narrowed to the whole number that it is, if this is in range. -/
theorem toInteger?_eq (x : Binary64) : x.toInteger? = x.toInt?.bind Integer.ofInt? := by
  cases x with
  | nan => rfl
  | infinite negative => rfl
  | finite negative units magnitude =>
      rw [toInteger?]
      by_cases whole : units % one = 0
      · have narrowed : (finite negative units magnitude).toInt? =
            some (signed negative (units / one)) := if_pos whole
        have isWhole : (finite negative units magnitude).isWhole = true := decide_eq_true whole
        have between := isBetweenLimits_iff (x := finite negative units magnitude) rfl
          (signed_eq_mul_one whole)
        rw [narrowed, Option.bind_some, isWhole, Bool.true_and, clampToInteger, Integer.clamp]
        cases fits : Integer.ofInt? (signed negative (units / one)) with
        | some m => rw [if_pos (between.mpr ((Integer.ofInt?_eq_some_iff.mp fits) ▸ m.fits))]
        | none => rw [if_neg (mt between.mp (Integer.ofInt?_eq_none_iff.mp fits))]
      · have broken : (finite negative units magnitude).toInt? = none := if_neg whole
        have isWhole : (finite negative units magnitude).isWhole = false := decide_eq_false whole
        rw [broken, isWhole]
        rfl

/-- A whole binary number is exactly what it amounts to. -/
theorem toInt?_eq_some_iff {x : Binary64} {n : Int} :
    x.toInt? = some n ↔ x.isFinite = true ∧ (Value.float x).amount = n := by
  cases x with
  | nan => simp [toInt?, isFinite]
  | infinite negative => simp [toInt?, isFinite]
  | finite negative units magnitude =>
      have amounts : (Value.float (finite negative units magnitude)).amount = n ↔
          signed negative units = n * one := by
        rw [Value.amount, div_eq_iff (Nat.cast_pos.mpr one_pos).ne']
        exact_mod_cast Iff.rfl
      rw [amounts]
      by_cases whole : units % one = 0
      · have narrowed : (finite negative units magnitude).toInt? =
            some (signed negative (units / one)) := if_pos whole
        have nonzero : (one : Int) ≠ 0 := (Int.natCast_pos.mpr one_pos).ne'
        rw [narrowed, Option.some.injEq, signed_eq_mul_one whole, mul_left_inj' nonzero]
        exact ⟨fun same => ⟨rfl, same⟩, And.right⟩
      · have broken : (finite negative units magnitude).toInt? = none := if_neg whole
        rw [broken]
        refine iff_of_false (Option.some_ne_none n).symm ?_
        rintro ⟨-, same⟩
        have multiple : units = n.natAbs * one := by
          rw [← DataFilter.natAbs_signed negative units, same, Int.natAbs_mul, Int.natAbs_natCast]
        exact whole (by rw [multiple, Nat.mul_mod_left])

end Binary64

/-! ## Decimals -/

/-- A decimal is narrowed to the whole number that it amounts to, if this is in range. -/
theorem Decimal.whole?_eq_some_iff {d : Decimal} {m : Integer} :
    (if d.isWhole then d.truncate? else none) = some m ↔ (Value.decimal d).amount = m.toInt := by
  have pos : (0 : Int) < (10 ^ d.scale : Nat) := by positivity
  have amounts : (Value.decimal d).amount = m.toInt ↔
      d.signed = m.toInt * (10 ^ d.scale : Nat) := by
    rw [Value.amount, div_eq_iff (by positivity)]
    exact_mod_cast Iff.rfl
  have whole : d.isWhole = true ↔ ((10 ^ d.scale : Nat) : Int) ∣ d.signed := by
    have size : d.signed.natAbs = d.coefficient := DataFilter.natAbs_signed d.negative _
    rw [Int.natCast_dvd, size, Nat.dvd_iff_mod_eq_zero]
    exact decide_eq_true_iff
  rw [amounts]
  by_cases even : d.isWhole = true
  · obtain ⟨q, split⟩ := whole.mp even
    have part : d.signed.tdiv (Nat.pow 10 d.scale) = q := by
      rw [split]
      exact Int.mul_tdiv_cancel_left q pos.ne'
    rw [if_pos even, truncate?, part, Integer.ofInt?_eq_some_iff, split, Int.mul_comm,
      mul_left_inj' pos.ne', eq_comm]
  · rw [if_neg even]
    refine iff_of_false (Option.some_ne_none m).symm fun same => even (whole.mpr ?_)
    rw [same]
    exact Int.dvd_mul_left _ _

/-! ## Values -/

namespace Value

/-- The value is a finite number, of whatever type, and exactly `n`. -/
def IsExactly (v : Value) (n : Int) : Prop := v.isFiniteNumber = true ∧ v.amount = n

/-- What a placeholder of a whole number does not take. -/
inductive IsNoInteger : Value → Prop where
  | nan : IsNoInteger (.float .nan)
  | infinite (negative : Bool) : IsNoInteger (.float (.infinite negative))
  | fraction {v : Value} (number : v.isFiniteNumber = true)
      (broken : ∀ n : Int, v.amount ≠ n) : IsNoInteger v
  | outOfRange {v : Value} {n : Int} (whole : v.IsExactly n) (beyond : ¬Fits n) : IsNoInteger v
  /-- A value that is neither a number nor NULL. -/
  | other {v : Value} (type : OperatorTable.isNumeric v.type = false)
      (present : v.isNull = false) : IsNoInteger v

variable {v : Value}

theorem isExactly_float {x : Binary64} {n : Int} :
    (float x).IsExactly n ↔ x.toInt? = some n :=
  Binary64.toInt?_eq_some_iff.symm

/-- The whole number that a value is narrowed to is exactly the value. -/
theorem asInteger?_eq_some_iff {m : Integer} : v.asInteger? = some m ↔ v.IsExactly m.toInt := by
  cases v with
  | integer n =>
      rw [asInteger?, Option.some.injEq, Integer.ext_iff]
      exact ⟨fun same => ⟨rfl, Int.cast_inj.mpr same⟩, fun h => Int.cast_inj.mp h.2⟩
  | float x =>
      rw [asInteger?, Binary64.toInteger?_eq, Option.bind_eq_some_iff]
      simp only [Integer.ofInt?_eq_some_iff, exists_eq_right', isExactly_float]
  | decimal d =>
      rw [asInteger?, Decimal.whole?_eq_some_iff]
      exact ⟨fun same => ⟨rfl, same⟩, And.right⟩
  | _ => exact iff_of_false nofun fun h => nomatch h.1

/-- A whole number is no other one. -/
theorem IsExactly.eq {m n : Int} (h : v.IsExactly m) (h' : v.IsExactly n) : m = n :=
  Int.cast_inj.mp (h.2.symm.trans h'.2)

theorem exists_asInteger?_iff {n : Int} :
    (∃ m, v.asInteger? = some m ∧ m.toInt = n) ↔ v.IsExactly n ∧ Fits n := by
  simp only [asInteger?_eq_some_iff]
  constructor
  · rintro ⟨m, exactly, rfl⟩
    exact ⟨exactly, m.fits⟩
  · rintro ⟨exactly, fits⟩
    exact ⟨⟨n, fits.1, fits.2⟩, exactly, rfl⟩

/-- What is refused is neither NULL nor narrowed. -/
theorem isNoInteger_iff : v.IsNoInteger ↔ v.isNull = false ∧ v.asInteger? = none := by
  constructor
  · intro refused
    refine ⟨?_, Option.eq_none_iff_forall_ne_some.mpr fun m taken => ?_⟩
    · cases refused with
      | other type present => exact present
      | fraction number broken => cases v <;> first | rfl | cases number
      | outOfRange whole beyond => cases v <;> first | rfl | cases whole.1
      | _ => rfl
    · have exactly := asInteger?_eq_some_iff.mp taken
      cases refused with
      | nan => cases exactly.1
      | infinite negative => cases exactly.1
      | fraction number broken => exact broken _ exactly.2
      | outOfRange whole beyond => exact beyond (whole.eq exactly ▸ m.fits)
      | other type present =>
          rw [isNumeric_of_isFiniteNumber exactly.1] at type
          cases type
  · rintro ⟨present, refused⟩
    cases number : v.isFiniteNumber with
    | true =>
        by_cases whole : ∃ n : Int, v.amount = n
        · obtain ⟨n, whole⟩ := whole
          refine .outOfRange ⟨number, whole⟩ fun fits => ?_
          obtain ⟨m, taken, -⟩ := exists_asInteger?_iff.mpr ⟨⟨number, whole⟩, fits⟩
          rw [refused] at taken
          cases taken
        · exact .fraction number (not_exists.mp whole)
    | false =>
        cases v with
        | float x =>
            cases x with
            | nan => exact .nan
            | infinite negative => exact .infinite negative
            | finite negative units magnitude => cases number
        | integer n => cases number
        | decimal d => cases number
        | _ => exact .other rfl present

end Value

/-! ## Placeholders -/

namespace Node

/-- NULL fills a placeholder of a whole number as it is, every other value is narrowed. -/
theorem bind_placeholder_integer {key : PlaceholderKey} {params : Parameters} {v : Value}
    (given : params.find? key = some v) :
    (Node.placeholder ⟨key, .integer⟩).bind params =
      if v.isNull then .ok (.literal .null)
      else match v.asInteger? with
        | some m => .ok (.literal (.integer m))
        | none => .error (.conversion ⟨key, .integer⟩ v.typeName) := by
  have filling := Placeholder.fill_eq ⟨key, .integer⟩ params
  have taken : PlaceholderKind.integer.convert? v =
      if v.isNull then some .null else v.asInteger?.map .integer := by
    cases v <;> rfl
  simp only [given, taken] at filling
  show (Placeholder.fill ⟨key, .integer⟩ params >>= fun v => pure (literal v)) = _
  rw [filling]
  cases v.isNull with
  | true => rfl
  | false => cases v.asInteger? <;> rfl

/-- A value is narrowed to a whole number just if it is a number, of whatever type, that is exactly
this one and in range. So a placeholder of a whole number is filled by its parameter, if this is
such a number, and by no number that differs from it; NULL fills it as well, and every other
parameter is refused with an error that names the placeholder and the type of the parameter. -/
theorem whole_parameters_are_exact :
    (∀ (v : Value) (n : Int),
      (∃ m, v.asInteger? = some m ∧ m.toInt = n) ↔ v.IsExactly n ∧ Fits n) ∧
    ∀ (key : PlaceholderKey) (params : Parameters) (v : Value), params.find? key = some v →
      (∀ filled, (Node.placeholder ⟨key, .integer⟩).bind params = .ok filled ↔
        v.isNull = true ∧ filled = .literal .null ∨
          ∃ m : Integer, v.IsExactly m.toInt ∧ filled = .literal (.integer m)) ∧
      ∀ e, (Node.placeholder ⟨key, .integer⟩).bind params = .error e ↔
        v.IsNoInteger ∧ e = .conversion ⟨key, .integer⟩ v.typeName := by
  refine ⟨fun v n => Value.exists_asInteger?_iff, fun key params v given => ?_⟩
  rw [bind_placeholder_integer given]
  simp only [← Value.asInteger?_eq_some_iff, Value.isNoInteger_iff]
  cases null : v.isNull with
  | true =>
      have narrowed : v.asInteger? = none := by cases v <;> first | rfl | cases null
      simp [narrowed, eq_comm]
  | false => cases v.asInteger? <;> simp [eq_comm]

/-- A decimal place that is zero does no harm; what the greatest whole number is rounded up to is
refused, and the least one is taken. -/
theorem whole_parameters_are_exact_limits :
    (Node.placeholder ⟨.position 0, .integer⟩).bind
        ⟨[.decimal ⟨true, 30, 1, by decide, by decide⟩], []⟩ =
      .ok (.literal (.integer ⟨-3, by decide, by decide⟩)) ∧
    (Node.placeholder ⟨.position 0, .integer⟩).bind
        ⟨[.float (.ofInt Integer.greatest.toInt)], []⟩ =
      .error (.conversion ⟨.position 0, .integer⟩ "float") ∧
    (Node.placeholder ⟨.name "n", .integer⟩).bind
        ⟨[], [("n", .float (.ofInt Integer.least.toInt))]⟩ =
      .ok (.literal (.integer .least)) := by
  have tenths : Value.IsExactly (.decimal ⟨true, 30, 1, by decide, by decide⟩) (-3) :=
    ⟨rfl, by norm_num [Value.amount, Decimal.signed]⟩
  have limit : Value.IsExactly (.float (.ofInt Integer.greatest.toInt)) 9223372036854775808 :=
    Value.isExactly_float.mpr (by decide +kernel)
  have least : Value.IsExactly (.float (.ofInt Integer.least.toInt)) Integer.least.toInt :=
    Value.isExactly_float.mpr (by decide +kernel)
  refine ⟨?_, ?_, ?_⟩
  · exact ((whole_parameters_are_exact.2 (.position 0) _ _ rfl).1 _).mpr (.inr ⟨_, tenths, rfl⟩)
  · exact ((whole_parameters_are_exact.2 (.position 0) _ _ rfl).2 _).mpr
      ⟨.outOfRange limit (by unfold Fits; decide), rfl⟩
  · exact ((whole_parameters_are_exact.2 (.name "n") _ _ rfl).1 _).mpr (.inr ⟨_, least, rfl⟩)

end Node

end DataFilter
