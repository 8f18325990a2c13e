import DataFilter.Operation.Table

/-!
# What the operators of the language do

`AND` and `OR` are operations on truth values. Every other operator is unknown where an operand is,
and the null tests apart it has no value on lists and objects: no rule of the language takes them.
So where such an operator has a value that is known, its operands are known and have no parts.
-/

namespace DataFilter

/-! ## Truth values -/

theorem Truth.eq_toValue_of_ofValue? {v : Value} {t : Truth} (h : ofValue? v = some t) :
    v = t.toValue := by
  cases v <;> cases h <;> rfl

/-- `AND` or `OR` of truth values. -/
def junction (op : Operator) (a b : Truth) : Truth := if op = .and then a.and b else a.or b

section Junctions

variable {op : Operator} {l r v : Value}

/-- Where `AND` and `OR` have a value, their operands are truth values. -/
theorem applyBinary_eq_ok_of_joins (joins : op = .and ∨ op = .or)
    (h : OperatorTable.standard.applyBinary l op r = .ok v) :
    ∃ a b : Truth, l = a.toValue ∧ r = b.toValue ∧ v = (junction op a b).toValue := by
  rw [OperatorTable.applyBinary, if_pos joins] at h
  unfold OperatorTable.logical at h
  split at h
  · rename_i a b ha hb
    exact ⟨a, b, Truth.eq_toValue_of_ofValue? ha, Truth.eq_toValue_of_ofValue? hb,
      (Except.ok.inj h).symm⟩
  · cases h

end Junctions

/-! ## Operands that are known -/

/-- Whether values of the type hold other values. -/
def ValueType.isNested : ValueType → Bool
  | array | object => true
  | _ => false

namespace OperatorTable

/-- No binary rule takes a list or an object. -/
theorem standardBinary?_of_isNested (op : Operator) {left right : ValueType}
    (nested : left.isNested = true ∨ right.isNested = true) :
    standardBinary? left op right = none := by
  have unordered : isOrdered left right = false := by
    rcases nested with nested | nested
    · cases left <;> cases nested <;> simp [isOrdered, isNumeric]
    · cases right <;> cases nested <;> cases left <;> rfl
  have uncounted : (isNumeric left && isNumeric right) = false := by
    rcases nested with nested | nested
    · cases left <;> cases nested <;> rfl
    · cases right <;> cases nested <;> exact Bool.and_false _
  have untimed : timeRule? left op right = none := by
    unfold timeRule?
    split <;> first | rfl | simp [ValueType.isNested] at nested
  unfold standardBinary?
  rw [unordered, uncounted, Bool.and_false, if_neg Bool.false_ne_true, Bool.false_and,
    if_neg Bool.false_ne_true]
  -- the other rules name the types that they take
  split <;> first | exact untimed | simp [ValueType.isNested] at nested

/-- No unary rule takes a list or an object. -/
theorem standardUnary?_of_isNested (op : Operator) {operand : ValueType}
    (nested : operand.isNested = true) : standardUnary? op operand = none := by
  cases operand <;> cases nested <;> cases op <;> rfl

/-- Where an operator other than `AND` and `OR` has a value, an operand is unknown and so is the
value, or both operands are known and have no parts. -/
theorem applyBinary_eq_ok_of_strict {op : Operator} {l r v : Value}
    (strict : ¬(op = .and ∨ op = .or)) (h : standard.applyBinary l op r = .ok v) :
    v = .null ∨ (l ≠ .null ∧ r ≠ .null) ∧ l.type.isNested = false ∧ r.type.isNested = false := by
  rw [applyBinary, if_neg strict] at h
  by_cases unknown : (l.isNull || r.isNull) = true
  · rw [if_pos unknown] at h
    exact .inl (Except.ok.inj h).symm
  · rw [if_neg unknown] at h
    obtain ⟨left, right⟩ := Bool.or_eq_false_iff.mp (Bool.not_eq_true _ ▸ unknown)
    have known : l ≠ .null ∧ r ≠ .null := by
      constructor
      · rintro rfl
        cases left
      · rintro rfl
        cases right
    by_cases nested : l.type.isNested = true ∨ r.type.isNested = true
    · -- only the comparison of value objects is left, and one of the operands is none
      have missing : standard.binary l.type op r.type = none :=
        standardBinary?_of_isNested op nested
      have refused : byCapability l op r = Value.unsupported op l r := by
        cases l <;> cases r <;> first | rfl | simp [Value.type, ValueType.isNested] at nested
      rw [missing] at h
      rw [show byCapability l op r = .ok v from h] at refused
      cases refused
    · rw [not_or, Bool.not_eq_true, Bool.not_eq_true] at nested
      exact .inr ⟨known, nested⟩

/-- Where an operator that is no null test has a value, its operand is unknown and so is the value,
or the operand is known and has no parts. -/
theorem applyUnary_eq_ok_of_strict {op : Operator} {u v : Value} (strict : op ≠ .isNull)
    (strict' : op ≠ .isNotNull) (h : standard.applyUnary op u = .ok v) :
    v = .null ∨ u ≠ .null ∧ u.type.isNested = false := by
  rw [applyUnary, if_neg strict, if_neg strict'] at h
  by_cases unknown : u.isNull = true
  · rw [if_pos unknown] at h
    exact .inl (Except.ok.inj h).symm
  · rw [if_neg unknown] at h
    have known : u ≠ .null := by
      rintro rfl
      exact unknown rfl
    by_cases nested : u.type.isNested = true
    · have missing : standard.unary op u.type = none := standardUnary?_of_isNested op nested
      rw [missing] at h
      cases h
    · exact .inr ⟨known, Bool.not_eq_true _ ▸ nested⟩

end OperatorTable

end DataFilter
