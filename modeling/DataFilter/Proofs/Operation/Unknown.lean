import DataFilter.Proofs.Operation.Table
import DataFilter.Proofs.Outcome

/-!
# Operators and NULL

NULL comes from NULL. No rule of the language answers it, so that an operator of known operands has
a known value or none at all; and the strict operators, all but `AND`, `OR` and the null tests, are
NULL just where an operand is.
-/

namespace DataFilter

/-- Whether the operator is unknown where an operand is. -/
def Operator.isStrict : Operator → Bool
  | and | or | isNull | isNotNull => false
  | _ => true

/-- A result that is made into a value which is known. -/
theorem map_ne_null {ε α : Type} {f : α → Value} (known : ∀ a, f a ≠ .null) (x : Except ε α) :
    x.map f ≠ .ok .null := by
  cases x with
  | error e => nofun
  | ok a =>
      intro h
      exact known a (Except.ok.inj h)

/-! ## The rules of the language -/

namespace Arithmetic

variable (op : Arithmetic)

theorem integers_ne_null (a b : Integer) : op.integers a b ≠ .ok .null := by
  have whole (n : Int) : (op.checked (Integer.ofInt? n)).map Value.integer ≠ .ok .null :=
    map_ne_null (by simp) _
  cases op with
  | add => exact whole _
  | subtract => exact whole _
  | multiply => exact whole _
  | divide =>
      show (if _ then _ else if _ then _ else _) ≠ _
      split
      · nofun
      · split
        · nofun
        · exact whole _
  | modulo =>
      show (if _ then _ else _) ≠ _
      split
      · nofun
      · intro h
        obtain ⟨_, -, remainder⟩ := bind_eq_ok h
        exact whole _ remainder

theorem narrow_ne_null (d : Decimal) : narrow d ≠ .null := by
  unfold narrow
  split <;> nofun

theorem mixed_ne_null (left right : Value) (x y : Binary64) :
    op.mixed left right x y ≠ .ok .null := by
  unfold mixed
  split
  · exact map_ne_null narrow_ne_null _
  · exact map_ne_null (by simp) _

theorem withDecimal_ne_null (left right : Value) (x y : Binary64) :
    op.withDecimal left right x y ≠ .ok .null := by
  unfold withDecimal
  split
  · exact map_ne_null (by simp) _
  · exact map_ne_null (by simp) _

theorem apply_ne_null (left right : Value) : op.apply left right ≠ .ok .null := by
  unfold apply
  split
  · exact op.integers_ne_null _ _
  · exact map_ne_null (by simp) _
  · exact op.mixed_ne_null _ _ _ _
  · exact op.mixed_ne_null _ _ _ _
  · exact map_ne_null (by simp) _
  · exact op.withDecimal_ne_null _ _ _ _
  · exact op.withDecimal_ne_null _ _ _ _
  · exact op.withDecimal_ne_null _ _ _ _
  · exact op.withDecimal_ne_null _ _ _ _
  · nofun

end Arithmetic

namespace OperatorTable

/-- The rules that the language has for binary operators. -/
inductive IsLanguageRule : BinaryRule → Prop where
  | comparison (op : Operator) : IsLanguageRule (comparison op)
  | arithmetic (op : Arithmetic) : IsLanguageRule op.apply
  | shift (op : Operator) : IsLanguageRule (Value.shift op)
  | concatenate : IsLanguageRule Value.concatenate
  | addTime : IsLanguageRule Value.addTime
  | subtractTime : IsLanguageRule Value.subtractTime
  | multiplyTime : IsLanguageRule Value.multiplyTime
  | divideTime : IsLanguageRule Value.divideTime

theorem isLanguageRule_of_standardBinary? {left right : ValueType} {op : Operator}
    {rule : BinaryRule} (h : standardBinary? left op right = some rule) : IsLanguageRule rule := by
  have timed (h : timeRule? left op right = some rule) : IsLanguageRule rule := by
    unfold timeRule? at h
    split at h <;> cases h
    all_goals first
      | exact .subtractTime
      | exact .addTime
      | exact .multiplyTime
      | exact .divideTime
  unfold standardBinary? at h
  split at h
  · cases h
    exact .comparison op
  · split at h
    · obtain ⟨operation, -, rfl⟩ := Option.map_eq_some_iff.mp h
      exact .arithmetic operation
    · split at h
      · cases h
        exact .shift .leftShift
      · cases h
        exact .shift .rightShift
      · cases h
        exact .concatenate
      · cases h
        exact .comparison .equal
      · cases h
        exact .comparison .notEqual
      · exact timed h

theorem IsLanguageRule.ne_null {rule : BinaryRule} (h : IsLanguageRule rule) (l r : Value) :
    rule l r ≠ .ok .null := by
  cases h with
  | comparison op => nofun
  | arithmetic op => exact op.apply_ne_null l r
  | shift op =>
      unfold Value.shift
      split
      · split <;> nofun
      · nofun
  | concatenate =>
      unfold Value.concatenate
      split <;> nofun
  | addTime =>
      unfold Value.addTime
      split
      · exact map_ne_null (by simp) _
      · exact map_ne_null (by simp) _
      · exact map_ne_null (by simp) _
      · nofun
  | subtractTime =>
      unfold Value.subtractTime
      split
      · nofun
      · exact map_ne_null (by simp) _
      · exact map_ne_null (by simp) _
      · nofun
  | multiplyTime =>
      unfold Value.multiplyTime Duration.times
      split
      · exact map_ne_null (by simp) _
      · exact map_ne_null (by simp) _
      · nofun
  | divideTime =>
      unfold Value.divideTime
      split
      · split
        · nofun
        · exact map_ne_null (by simp) _
      · nofun

/-- Where value objects are comparable, the answer is a boolean. -/
theorem byCapability_ne_null (l : Value) (op : Operator) (r : Value) :
    byCapability l op r ≠ .ok .null := by
  unfold byCapability
  split
  · split <;> nofun
  · nofun

/-- A unary rule answers NULL only if it is asked about NULL. -/
theorem ne_null_of_standardUnary? {op : Operator} {type : ValueType} {rule : UnaryRule}
    (h : standardUnary? op type = some rule) {u : Value} (known : u ≠ .null) :
    rule u ≠ .ok .null := by
  have negation : u.negate ≠ .ok .null := by
    unfold Value.negate
    split
    · split <;> nofun
    · nofun
    · nofun
    · nofun
    · nofun
  have same : (.ok u : Except OperatorError Value) ≠ .ok .null := by
    intro h
    exact known (Except.ok.inj h)
  unfold standardUnary? at h
  split at h
  · cases h
    unfold Value.complement
    split <;> nofun
  · cases h
    exact negation
  · cases h
    exact same
  · split at h
    · cases h
      exact negation
    · cases h
  · split at h
    · cases h
      exact same
    · cases h
  · cases h

/-! ## Applying operators -/

section Applying

variable {op : Operator} {l r u : Value}

theorem Value.isNull_eq_true_iff {v : Value} : v.isNull = true ↔ v = .null := by
  cases v <;> simp [Value.isNull]

/-- No binary operator makes NULL of operands that are known. -/
theorem applyBinary_ne_null (left : l ≠ .null) (right : r ≠ .null) :
    standard.applyBinary l op r ≠ .ok .null := by
  by_cases joins : op = .and ∨ op = .or
  · intro h
    obtain ⟨a, b, rfl, rfl, unknown⟩ := applyBinary_eq_ok_of_joins joins h
    rcases a with _ | a
    · exact left rfl
    · rcases b with _ | b
      · exact right rfl
      · -- of two truth values that are known, the junction is known
        unfold junction at unknown
        split at unknown <;> cases a <;> cases b <;> cases unknown
  · rw [applyBinary, if_neg joins]
    split
    · rename_i unknown
      rw [Bool.or_eq_true, Value.isNull_eq_true_iff, Value.isNull_eq_true_iff] at unknown
      exact absurd unknown (not_or.mpr ⟨left, right⟩)
    · split
      · rename_i rule found
        exact (isLanguageRule_of_standardBinary? found).ne_null l r
      · exact byCapability_ne_null l op r

/-- No unary operator makes NULL of an operand that is known. -/
theorem applyUnary_ne_null (known : u ≠ .null) : standard.applyUnary op u ≠ .ok .null := by
  have notNull : u.isNull ≠ true := by
    rw [ne_eq, Value.isNull_eq_true_iff]
    exact known
  rw [applyUnary]
  by_cases nullTest : op = .isNull
  · rw [if_pos nullTest]
    simp
  · rw [if_neg nullTest]
    by_cases knownTest : op = .isNotNull
    · rw [if_pos knownTest]
      simp
    · rw [if_neg knownTest, if_neg notNull]
      cases found : standard.unary op u.type with
      | none => simp
      | some rule => exact ne_null_of_standardUnary? found known

/-- A strict operator is NULL just where an operand is. -/
theorem applyBinary_eq_null_iff (strict : op.isStrict = true) :
    standard.applyBinary l op r = .ok .null ↔ l = .null ∨ r = .null := by
  constructor
  · intro h
    by_cases left : l = .null
    · exact .inl left
    · by_cases right : r = .null
      · exact .inr right
      · exact absurd h (applyBinary_ne_null left right)
  · intro unknown
    have separate : ¬(op = .and ∨ op = .or) := by
      rintro (rfl | rfl) <;> cases strict
    have absorbed : (l.isNull || r.isNull) = true := by
      rw [Bool.or_eq_true, Value.isNull_eq_true_iff, Value.isNull_eq_true_iff]
      exact unknown
    rw [applyBinary, if_neg separate, if_pos absorbed]

theorem applyUnary_eq_null_iff (strict : op.isStrict = true) :
    standard.applyUnary op u = .ok .null ↔ u = .null := by
  constructor
  · intro h
    by_cases unknown : u = .null
    · exact unknown
    · exact absurd h (applyUnary_ne_null unknown)
  · rintro rfl
    cases op <;> first | rfl | cases strict

end Applying

end OperatorTable

end DataFilter
