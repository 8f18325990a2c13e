import DataFilter.Number.Integer

/-!
# Operators

The operators that conditions are made of, with their spelling in templates and in SQL, their
grouping when they are chained, how tightly they bind in SQL, and why one gives no value.
-/

namespace DataFilter

/-- An operator of a condition. -/
inductive Operator where
  | equal | notEqual | lessThan | lessThanEqual | greaterThan | greaterThanEqual
  | add | subtract | multiply | divide | modulo
  | leftShift | rightShift
  | and | or | not
  | positive | negative
  | isNull | isNotNull
  deriving DecidableEq, Repr

/-- How operators of one strength group when they are chained. -/
inductive Associativity where
  | left | right
  /-- Chaining has no meaning, as for comparisons. -/
  | none
  deriving DecidableEq, Repr

namespace Operator

/-- The spelling in templates and messages. -/
def symbol : Operator → String
  | equal => "=="
  | notEqual => "!="
  | lessThan => "<"
  | lessThanEqual => "<="
  | greaterThan => ">"
  | greaterThanEqual => ">="
  | add | positive => "+"
  | subtract | negative => "-"
  | multiply => "*"
  | divide => "/"
  | modulo => "%"
  | leftShift => "<<"
  | rightShift => ">>"
  | and => "&&"
  | or => "||"
  | not => "!"
  | isNull => "IS NULL"
  | isNotNull => "IS NOT NULL"

/-- The spelling in SQL, where it differs from the template's. -/
def sql : Operator → String
  | equal => "="
  | notEqual => "<>"
  | and => "AND"
  | or => "OR"
  | not => "NOT"
  | op => op.symbol

/-- The grouping that a condition built with this operator gets. -/
def associativity : Operator → Associativity
  | equal | notEqual | lessThan | lessThanEqual | greaterThan | greaterThanEqual => .none
  | not | positive | negative => .right
  | _ => .left

def isComparison : Operator → Bool
  | equal | notEqual | lessThan | lessThanEqual | greaterThan | greaterThanEqual => true
  | _ => false

def isLogical : Operator → Bool
  | and | or | not => true
  | _ => false

/-- How tightly the operator binds in SQL; a larger number binds tighter. -/
def precedence : Operator → Nat
  | or => 1
  | and => 2
  | not => 3
  | isNull | isNotNull => 4
  | equal | notEqual | lessThan | lessThanEqual | greaterThan | greaterThanEqual => 5
  | leftShift | rightShift => 6
  | add | subtract => 7
  | multiply | divide | modulo => 8
  | positive | negative => 9

end Operator

/-! ## Failures -/

/-- Why an operator gives no value. -/
inductive OperatorError where
  /-- No rule for operands of these types. -/
  | unsupported (op : Operator) (left right : String)
  /-- No rule for an operand of this type. -/
  | unsupportedUnary (op : Operator) (operand : String)
  | divisionByZero
  | overflow (op : Operator)
  | shiftOutOfRange (amount : Integer)
  deriving DecidableEq

def OperatorError.message : OperatorError → String
  | unsupported op left right =>
    "Operator " ++ op.symbol ++ " not supported for operand types " ++ left ++ " and " ++ right
  | unsupportedUnary op operand =>
    "Operator " ++ op.symbol ++ " not supported for operand type " ++ operand
  | divisionByZero => "Division by zero"
  | overflow op => "Arithmetic overflow in " ++ op.symbol
  | shiftOutOfRange amount => "Shift amount " ++ amount.render ++ " out of range"

end DataFilter
