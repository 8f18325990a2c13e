import DataFilter.Proofs.Number.Nonzero
import DataFilter.Proofs.Operation.WholeNumbers
import DataFilter.Proofs.Outcome

/-!
# Which divisions are by zero

Division by zero is refused, whatever the types of the operands are. The divisor is tested as it
enters the computation: as it is among numbers of one type, and after a conversion where the types
differ. Whole numbers and decimals are turned into zero only if they are zero. Not so binary
numbers: below `0.944 * 10^-28` or so they are turned into the decimal zero. Next to a whole number
or a decimal such a divisor is refused, while a binary number is divided by it.
-/

namespace DataFilter

/-! ## Binary numbers that are turned into the decimal zero -/

namespace Decimal

open Binary64

/-- The least magnitude that is not turned into the decimal zero. It is `0.944 * 10^-28` or so: the
decimals beyond are rounded away one at a time, and each may lift the one in front of it. -/
def leastPart : Nat := 8424725963889347 * Nat.pow 2 928

/-- The magnitude in front of it. -/
def belowPart : Nat := 8424725963889346 * Nat.pow 2 928

theorem leastPart_pos : 0 < leastPart := by
  unfold leastPart
  generalize 928 = exponent
  exact Nat.mul_pos (by decide) (Nat.two_pow_pos exponent)

theorem isMagnitude_leastPart : IsMagnitude leastPart := by
  have bits : 928 ≤ 2045 := by decide
  unfold leastPart
  generalize 928 = exponent at bits ⊢
  exact ⟨_, exponent, by decide, bits, rfl⟩

theorem isMagnitude_belowPart : IsMagnitude belowPart := by
  have bits : 928 ≤ 2045 := by decide
  unfold belowPart
  generalize 928 = exponent at bits ⊢
  exact ⟨_, exponent, by decide, bits, rfl⟩

theorem magnitudeGap_belowPart : magnitudeGap belowPart = Nat.pow 2 928 := by decide +kernel

theorem rankParts_belowPart : Binary64.rankParts belowPart = 0 := by decide +kernel

theorem rankParts_leastPart : 0 < Binary64.rankParts leastPart := by decide +kernel

/-- No magnitude lies between the two. -/
theorem le_belowPart {units : Nat} (magnitude : IsMagnitude units) (less : units < leastPart) :
    units ≤ belowPart := by
  refine Nat.le_of_not_lt fun more => ?_
  have dvd : magnitudeGap belowPart ∣ units :=
    (magnitudeGap_dvd (Nat.le_of_lt more)).trans (gap_dvd_of_isMagnitude magnitude)
  have dvd' : magnitudeGap belowPart ∣ leastPart := by
    rw [magnitudeGap_belowPart]
    unfold leastPart
    generalize 928 = exponent
    exact Nat.dvd_mul_left _ _
  have apart := add_gap_le dvd dvd' less
  have next : leastPart = belowPart + magnitudeGap belowPart := by
    rw [magnitudeGap_belowPart]
    unfold leastPart belowPart
    generalize 928 = exponent
    omega
  omega

theorem rankParts_eq_zero_iff {units : Nat} (magnitude : IsMagnitude units) :
    Binary64.rankParts units = 0 ↔ units < leastPart := by
  constructor
  · intro zero
    refine Nat.lt_of_not_le fun large => ?_
    have positive := rankParts_leastPart
    have mono := Binary64.rankParts_mono isMagnitude_leastPart magnitude large
    omega
  · intro less
    have below := le_belowPart magnitude less
    have mono := Binary64.rankParts_mono magnitude isMagnitude_belowPart below
    rw [rankParts_belowPart] at mono
    exact Nat.le_zero.mp mono

theorem isZero_iff_parts (d : Decimal) : d.isZero = true ↔ parts (d.coefficient, d.scale) = 0 := by
  rw [isZero, decide_eq_true_eq, parts, Nat.mul_eq_zero]
  exact ⟨.inl, fun h => h.resolve_right (Nat.pow_pos (by decide)).ne'⟩

/-- Which binary numbers are turned into zero. -/
theorem isZero_of_ofBinary64? {negative : Bool} {units : Nat} {magnitude : IsMagnitude units}
    {q : Decimal} (h : ofBinary64? (finite negative units magnitude) = some q) :
    q.isZero = true ↔ units < leastPart := by
  cases found : ofMagnitude? units with
  | none =>
      rw [ofBinary64?_of_none negative magnitude found] at h
      cases h
  | some r =>
      obtain ⟨q', turned, -, same⟩ := ofBinary64?_of_some negative magnitude found
      obtain rfl := Option.some.inj (turned.symm.trans h)
      rw [isZero_iff_parts, same, ← rankParts_of_some found]
      exact rankParts_eq_zero_iff magnitude

/-- What has no decimal is too large to be turned into zero. -/
theorem leastPart_le_of_ofBinary64? {negative : Bool} {units : Nat} {magnitude : IsMagnitude units}
    (h : ofBinary64? (finite negative units magnitude) = none) : leastPart ≤ units := by
  refine Nat.le_of_not_lt fun less => ?_
  cases found : ofMagnitude? units with
  | none =>
      have zero := (rankParts_eq_zero_iff magnitude).mpr less
      have positive : 0 < limitParts := by decide
      rw [rankParts_of_none found] at zero
      omega
  | some r =>
      obtain ⟨q, turned, -⟩ := ofBinary64?_of_some negative magnitude found
      rw [turned] at h
      cases h

end Decimal

/-! ## Divisors -/

namespace Value

/-- The number zero of any type. -/
def isZero : Value → Bool
  | integer n => n.toInt = 0
  | float x => x.isZero
  | decimal d => d.isZero
  | _ => false

/-- A binary number other than zero that is turned into the decimal zero. -/
def isTiny : Value → Bool
  | float (.finite _ units _) => units ≠ 0 ∧ units < Decimal.leastPart
  | _ => false

end Value

namespace Arithmetic

/-- An operation that is computed in decimals where there are some, as binary numbers where there
are none. -/
def viaDecimals (op : Arithmetic) (result : Decimal → Value) (left right : Value)
    (x y : Binary64) : Except OperatorError Value :=
  match left.asDecimal?, right.asDecimal? with
  | some a, some b => (op.decimals a b).map result
  | _, _ => (op.floats x y).map .float

section Divides

variable {op : Arithmetic} {result : Decimal → Value} {left right : Value} {x y : Binary64}

theorem mixed_eq : op.mixed left right x y = op.viaDecimals narrow left right x y := rfl

theorem withDecimal_eq : op.withDecimal left right x y = op.viaDecimals .decimal left right x y :=
  rfl

theorem refused_iff {α : Type} {c : Prop} [Decidable c] {e : OperatorError}
    {x : Except OperatorError α} (other : x ≠ .error e) :
    (if c then .error e else x) = .error e ↔ c := by
  split
  · exact iff_of_true rfl ‹_›
  · exact iff_of_false other ‹_›

variable (divides : op = .divide ∨ op = .modulo)

include divides

theorem floats_by_zero_iff : op.floats x y = .error .divisionByZero ↔ y.isZero = true := by
  rcases divides with rfl | rfl
  · exact refused_iff nofun
  · exact refused_iff nofun

theorem decimals_by_zero_iff {a b : Decimal} :
    op.decimals a b = .error .divisionByZero ↔ b.isZero = true := by
  have overflows (q : Option Decimal) : op.checked q ≠ .error .divisionByZero := by
    cases q <;> exact nofun
  rcases divides with rfl | rfl
  · exact refused_iff (overflows _)
  · exact refused_iff (overflows _)

/-- Among decimals the decimal of the divisor counts, among binary numbers its binary number. -/
theorem viaDecimals_by_zero_iff :
    op.viaDecimals result left right x y = .error .divisionByZero ↔
      match left.asDecimal?, right.asDecimal? with
      | some _, some b => b.isZero = true
      | _, _ => y.isZero = true := by
  unfold viaDecimals
  split
  · rw [map_eq_error_iff, decimals_by_zero_iff divides]
  · rw [map_eq_error_iff, floats_by_zero_iff divides]

/-- If both are zero at once, it does not matter which of them counts. -/
theorem viaDecimals_by_exact {d : Decimal} (exact : right.asDecimal? = some d)
    (same : y.isZero = d.isZero) :
    op.viaDecimals result left right x y = .error .divisionByZero ↔ d.isZero = true := by
  rw [viaDecimals_by_zero_iff divides, exact]
  cases left.asDecimal? with
  | none => rw [same]
  | some a => rfl

/-- A binary divisor next to another type. -/
theorem viaDecimals_by_float {a : Decimal} (exact : left.asDecimal? = some a) :
    op.viaDecimals result left (.float y) x y = .error .divisionByZero ↔
      y.isZero = true ∨ (Value.float y).isTiny = true := by
  have turned : (Value.float y).asDecimal? = Decimal.ofBinary64? y := rfl
  rw [viaDecimals_by_zero_iff divides, exact, turned]
  cases y with
  | nan => simp [Decimal.ofBinary64?, Binary64.isZero, Value.isTiny]
  | infinite negative => simp [Decimal.ofBinary64?, Binary64.isZero, Value.isTiny]
  | finite negative units magnitude =>
      have positive := Decimal.leastPart_pos
      have zero : (Binary64.finite negative units magnitude).isZero = true ↔ units = 0 :=
        decide_eq_true_iff
      have tiny : (Value.float (.finite negative units magnitude)).isTiny = true ↔
          units ≠ 0 ∧ units < Decimal.leastPart := decide_eq_true_iff
      rw [zero, tiny]
      cases found : Decimal.ofBinary64? (.finite negative units magnitude) with
      | some q =>
          dsimp only
          rw [Decimal.isZero_of_ofBinary64? found]
          omega
      | none =>
          have large := Decimal.leastPart_le_of_ofBinary64? found
          dsimp only
          omega

end Divides

theorem isZero_ofInteger (n : Integer) : (Decimal.ofInteger n).isZero = decide (n.toInt = 0) :=
  decide_eq_decide.mpr Int.natAbs_eq_zero

section Apply

variable {op : Arithmetic} (divides : op = .divide ∨ op = .modulo) {l : Value}
  (left : OperatorTable.isNumeric l.type = true)

include divides left

theorem apply_by_integer_iff (b : Integer) :
    op.apply l (.integer b) = .error .divisionByZero ↔ b.toInt = 0 := by
  have exact : (Value.integer b).asDecimal? = some (.ofInteger b) := rfl
  have zero : (Decimal.ofInteger b).isZero = decide (b.toInt = 0) := isZero_ofInteger b
  have same : (Binary64.ofInt b.toInt).isZero = (Decimal.ofInteger b).isZero := by
    rw [Binary64.isZero_ofInt, zero]
  rw [← decide_eq_true_iff (p := b.toInt = 0), ← zero]
  cases l with
  | integer a =>
      have byZero := (isDivision a b).by_zero
      rw [zero, decide_eq_true_iff]
      rcases divides with rfl | rfl
      · exact byZero.1
      · exact byZero.2
  | float x =>
      show op.mixed (.float x) (.integer b) x (.ofInt b.toInt) = _ ↔ _
      rw [mixed_eq]
      exact viaDecimals_by_exact divides exact same
  | decimal a =>
      show op.withDecimal (.decimal a) (.integer b) a.toBinary64 (.ofInt b.toInt) = _ ↔ _
      rw [withDecimal_eq]
      exact viaDecimals_by_exact divides exact same
  | _ => cases left

theorem apply_by_decimal_iff (b : Decimal) :
    op.apply l (.decimal b) = .error .divisionByZero ↔ b.isZero = true := by
  have exact : (Value.decimal b).asDecimal? = some b := rfl
  have same : b.toBinary64.isZero = b.isZero := b.isZero_toBinary64
  cases l with
  | integer a =>
      show op.withDecimal (.integer a) (.decimal b) (.ofInt a.toInt) b.toBinary64 = _ ↔ _
      rw [withDecimal_eq]
      exact viaDecimals_by_exact divides exact same
  | float x =>
      show op.withDecimal (.float x) (.decimal b) x b.toBinary64 = _ ↔ _
      rw [withDecimal_eq]
      exact viaDecimals_by_exact divides exact same
  | decimal a => exact map_eq_error_iff.trans (decimals_by_zero_iff divides)
  | _ => cases left

theorem apply_by_float_iff (y : Binary64) :
    op.apply l (.float y) = .error .divisionByZero ↔
      y.isZero = true ∨ l.type ≠ .float ∧ (Value.float y).isTiny = true := by
  cases l with
  | integer a =>
      have other : (Value.integer a).type ≠ .float := nofun
      rw [and_iff_right other]
      show op.mixed (.integer a) (.float y) (.ofInt a.toInt) y = _ ↔ _
      rw [mixed_eq]
      exact viaDecimals_by_float divides rfl
  | float x =>
      have alike : ¬((Value.float x).type ≠ .float ∧ (Value.float y).isTiny = true) := by
        intro h
        exact h.1 rfl
      rw [or_iff_left alike]
      exact map_eq_error_iff.trans (floats_by_zero_iff divides)
  | decimal a =>
      have other : (Value.decimal a).type ≠ .float := nofun
      rw [and_iff_right other]
      show op.withDecimal (.decimal a) (.float y) a.toBinary64 y = _ ↔ _
      rw [withDecimal_eq]
      exact viaDecimals_by_float divides rfl
  | _ => cases left

end Apply

end Arithmetic

namespace OperatorTable

open Arithmetic

/-- A numeric rule of the language. -/
theorem applyBinary_of_numbers (op : Arithmetic) {l r : Value}
    (left : isNumeric l.type = true) (right : isNumeric r.type = true) :
    standard.applyBinary l op.operator r = op.apply l r := by
  cases l <;> cases left <;> cases r <;> cases right <;> cases op <;> rfl

/-- Divisions are refused as divisions by zero if the divisor is zero, and else only if it is a tiny
binary number next to a whole number or a decimal. -/
theorem division_by_zero_iff {op : Operator} {l r : Value} (divides : op = .divide ∨ op = .modulo)
    (left : isNumeric l.type = true) (right : isNumeric r.type = true) :
    standard.applyBinary l op r = .error .divisionByZero ↔
      r.isZero = true ∨ l.type ≠ .float ∧ r.isTiny = true := by
  obtain ⟨op', rfl, divides'⟩ : ∃ op' : Arithmetic, op = op'.operator ∧
      (op' = .divide ∨ op' = .modulo) := by
    rcases divides with rfl | rfl
    · exact ⟨.divide, rfl, .inl rfl⟩
    · exact ⟨.modulo, rfl, .inr rfl⟩
  rw [applyBinary_of_numbers op' left right]
  cases r with
  | integer b =>
      rw [apply_by_integer_iff divides' left]
      simp [Value.isZero, Value.isTiny]
  | float y => exact apply_by_float_iff divides' left y
  | decimal b =>
      rw [apply_by_decimal_iff divides' left]
      simp [Value.isZero, Value.isTiny]
  | _ => cases right

/-- Nothing is divided by `0.00`, and everything can be divided by the least decimal. -/
theorem division_by_cents :
    let none : Decimal := ⟨false, 0, 2, by decide, by decide⟩
    let least : Decimal := ⟨false, 1, 28, by decide, by decide⟩
    standard.applyBinary (.integer 7) .modulo (.decimal none) = .error .divisionByZero ∧
      standard.applyBinary (.float .nan) .divide (.decimal least) ≠ .error .divisionByZero := by
  intro none least
  constructor
  · exact (division_by_zero_iff (.inr rfl) rfl rfl).mpr (.inl rfl)
  · intro refused
    rcases (division_by_zero_iff (.inl rfl) rfl rfl).mp refused with zero | ⟨other, -⟩
    · cases zero
    · exact other rfl

/-- `2^-100` -/
def tinyDivisor : Binary64 := (Binary64.ofInt 1).div (.ofInt 1267650600228229401496703205376)

/-- One cannot be divided by `2^-100`, which is not zero, unless one is a binary number as well. -/
theorem one_divided_by_tiny_number :
    tinyDivisor.isZero = false ∧
      standard.applyBinary (.integer 1) .divide (.float tinyDivisor) = .error .divisionByZero ∧
      standard.applyBinary (.float (.ofInt 1)) .divide (.float tinyDivisor) =
        .ok (.float (.ofInt 1267650600228229401496703205376)) := by
  have tiny : (Value.float tinyDivisor).isTiny = true := by decide +kernel
  have refused : Arithmetic.divide.apply (.integer 1) (.float tinyDivisor) =
      .error .divisionByZero :=
    (apply_by_float_iff (.inl rfl) rfl tinyDivisor).mpr (.inr ⟨nofun, tiny⟩)
  have quotient : Arithmetic.divide.floats (.ofInt 1) tinyDivisor =
      .ok (.ofInt 1267650600228229401496703205376) := by decide +kernel
  have mixed := applyBinary_of_numbers .divide (l := .integer 1) (r := .float tinyDivisor) rfl rfl
  have binary := applyBinary_of_numbers .divide (l := .float (.ofInt 1)) (r := .float tinyDivisor)
    rfl rfl
  refine ⟨by decide +kernel, ?_, ?_⟩
  · exact mixed.trans refused
  · refine binary.trans ?_
    show (Arithmetic.divide.floats (.ofInt 1) tinyDivisor).map Value.float = _
    rw [quotient]
    rfl

end OperatorTable

end DataFilter
