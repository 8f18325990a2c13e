import DataFilter.Proofs.Operation.Unknown

/-!
# Which rule computes an operator

A table is told by its registrations, the rules of the language being the oldest of them
(`languageRules`). For operands of given types the latest registration for exactly these types
counts, and no other one.

Registrations come third. `AND`, `OR` and the null tests never look at the table, and the other
operators look at it only where no operand is NULL. Where it has no rule, the capabilities of value
objects are asked, and what they do not answer is unsupported.
-/

namespace DataFilter

/-- What rules are registered for: an operator with the types of its operands. -/
inductive RuleKey where
  | binary (left : ValueType) (op : Operator) (right : ValueType)
  | unary (op : Operator) (operand : ValueType)
  deriving DecidableEq

/-- A call that registers a rule. -/
inductive Registration where
  | binary (left : ValueType) (op : Operator) (right : ValueType) (rule : BinaryRule)
  | unary (op : Operator) (operand : ValueType) (rule : UnaryRule)

namespace Registration

def key : Registration → RuleKey
  | binary left op right _ => .binary left op right
  | unary op operand _ => .unary op operand

section Latest

variable {call : Registration} {history older newer : List Registration} {key : RuleKey}

end Latest

end Registration

namespace OperatorTable

open Registration

/-- The table with a rule registered. -/
def register (table : OperatorTable) : Registration → OperatorTable
  | .binary left op right rule => table.registerBinary left op right rule
  | .unary op operand rule => table.registerUnary op operand rule

/-- The table after some registrations, one after the other. -/
def after (table : OperatorTable) (history : List Registration) : OperatorTable :=
  history.foldl register table

/-! ## One registration -/

section Register

variable {table : OperatorTable} {call : Registration} {left right operand : ValueType}
  {op : Operator}

end Register

/-! ## Many registrations -/

section After

variable {table : OperatorTable} {history : List Registration} {left right operand : ValueType}
  {op : Operator}

theorem after_append (table : OperatorTable) (older newer : List Registration) :
    table.after (older ++ newer) = (table.after older).after newer :=
  List.foldl_append

end After

/-! ## The rules of the language -/

/-- A table without rules. -/
def empty : OperatorTable := ⟨fun _ _ _ => none, fun _ _ => none⟩

def numberTypes : List ValueType := [.integer, .float, .decimal]

theorem isOrdered_iff {l r : ValueType} :
    isOrdered l r = true ↔
      (isNumeric l && isNumeric r) = true ∨ l = r ∧ (l = .text ∨ l = .instant ∨ l = .duration) := by
  simp [isOrdered]

end OperatorTable

/-! ## Value objects -/

namespace ValueObject

/-- What the capabilities of two value objects answer to a comparison. Both objects must have the
capability that the operator asks for, and the left one must know an answer about the right one.
Nothing else is known of the answers. -/
inductive Answers (a b : ValueObject) : Operator → Bool → Prop where
  | equal {left right : Equatable} {answer : Bool} (able : a.kind.equatable = some left)
      (able' : b.kind.equatable = some right) (known : left.equal? a.view b.view = some answer) :
      Answers a b .equal answer
  | notEqual {left right : Equatable} {answer : Bool} (able : a.kind.equatable = some left)
      (able' : b.kind.equatable = some right) (known : left.equal? a.view b.view = some answer) :
      Answers a b .notEqual !answer
  | ordered {left right : Ordered} {op : Operator}
      {relation : ObjectView → ObjectView → Option Bool} {answer : Bool}
      (able : a.kind.ordered = some left) (able' : b.kind.ordered = some right)
      (asked : left.relation? op = some relation)
      (known : relation a.view b.view = some answer) : Answers a b op answer

section Answers

variable {a b : ValueObject} {op : Operator} {answer : Bool}

end Answers

end ValueObject

namespace OperatorTable

/-! ## Dispatch -/

section Known

variable {table : OperatorTable} {op : Operator} {l r v : Value}

/-- Operands that are known are left to the table, and then to the capabilities. -/
theorem applyBinary_of_known (strict : ¬(op = .and ∨ op = .or)) (left : l ≠ .null)
    (right : r ≠ .null) :
    table.applyBinary l op r =
      match table.binary l.type op r.type with
      | some rule => rule l r
      | none => byCapability l op r := by
  have known : ¬(l.isNull || r.isNull) = true := by
    rw [Bool.or_eq_true, Value.isNull_eq_true_iff, Value.isNull_eq_true_iff]
    exact not_or.mpr ⟨left, right⟩
  exact (if_neg strict).trans (if_neg known)

end Known

section Unregistered

variable {history : List Registration} {op : Operator}

end Unregistered

end OperatorTable

end DataFilter
