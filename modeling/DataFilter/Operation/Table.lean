import DataFilter.Operation.Arithmetic
import DataFilter.Operation.Logic

/-!
# The table of operators

Which rule computes an operator depends on the types of its operands. `OperatorTable.standard` holds
the rules of the language; programs may register rules of their own, and the latest one counts.

Some things no rule can change. `AND`, `OR` and the null tests are decided by truth values and by
NULL alone, and every other operator is NULL where an operand is. Where no rule is found, value
objects are compared as far as their kinds allow, and everything else is unsupported.
-/

namespace DataFilter

/-- How a binary operator computes its value. -/
abbrev BinaryRule := Value → Value → Except OperatorError Value

/-- How a unary operator computes its value. -/
abbrev UnaryRule := Value → Except OperatorError Value

/-- The rules for operands of given types. -/
structure OperatorTable where
  binary : ValueType → Operator → ValueType → Option BinaryRule
  unary : Operator → ValueType → Option UnaryRule

namespace OperatorTable

/-! ## The rules of the language -/

/-- The types of numbers. -/
def isNumeric : ValueType → Bool
  | .integer | .float | .decimal => true
  | _ => false

/-- The rule of a comparison. -/
def comparison (op : Operator) : BinaryRule := fun left right =>
  .ok (.boolean (op.holds (left.compare? right)))

/-- Whether values of these types have an order. -/
def isOrdered (left right : ValueType) : Bool :=
  isNumeric left && isNumeric right || left = right && [.text, .instant, .duration].contains left

/-- The rule for points and spans of time. -/
def timeRule? : ValueType → Operator → ValueType → Option BinaryRule
  | .instant, .subtract, .instant | .instant, .subtract, .duration
  | .duration, .subtract, .duration => some Value.subtractTime
  | .instant, .add, .duration | .duration, .add, .instant
  | .duration, .add, .duration => some Value.addTime
  | .duration, .multiply, .integer | .integer, .multiply, .duration => some Value.multiplyTime
  | .duration, .divide, .integer => some Value.divideTime
  | _, _, _ => none

/-- The rule of a binary operator in the language. -/
def standardBinary? (left : ValueType) (op : Operator) (right : ValueType) : Option BinaryRule :=
  if op.isComparison && isOrdered left right then some (comparison op)
  else if isNumeric left && isNumeric right && (Arithmetic.ofOperator? op).isSome then
    (Arithmetic.ofOperator? op).map Arithmetic.apply
  else match left, op, right with
    | .integer, .leftShift, .integer => some (Value.shift .leftShift)
    | .integer, .rightShift, .integer => some (Value.shift .rightShift)
    | .text, .add, .text => some Value.concatenate
    | .boolean, .equal, .boolean => some (comparison .equal)
    | .boolean, .notEqual, .boolean => some (comparison .notEqual)
    | _, _, _ => timeRule? left op right

/-- The rule of a unary operator in the language. -/
def standardUnary? : Operator → ValueType → Option UnaryRule
  | .not, .boolean => some Value.complement
  | .negative, .duration => some Value.negate
  | .positive, .duration => some .ok
  | .negative, type => if isNumeric type then some Value.negate else none
  | .positive, type => if isNumeric type then some .ok else none
  | _, _ => none

/-- The rules of the language. -/
def standard : OperatorTable := ⟨standardBinary?, standardUnary?⟩

/-! ## Registering rules -/

/-- The table with a rule for operands of exactly these types. -/
def registerBinary (table : OperatorTable) (left : ValueType) (op : Operator) (right : ValueType)
    (rule : BinaryRule) : OperatorTable :=
  { table with
    binary := fun l o r => if l = left ∧ o = op ∧ r = right then some rule else table.binary l o r }

/-- The table with a rule for an operand of exactly this type. -/
def registerUnary (table : OperatorTable) (op : Operator) (operand : ValueType)
    (rule : UnaryRule) : OperatorTable :=
  { table with unary := fun o t => if o = op ∧ t = operand then some rule else table.unary o t }

/-- Whether there is a rule for operands of exactly these types. -/
def supports (table : OperatorTable) (left : ValueType) (op : Operator) (right : ValueType) :
    Bool :=
  (table.binary left op right).isSome

/-! ## Applying operators -/

/-- `AND` and `OR` of booleans and NULL. -/
def logical (left : Value) (op : Operator) (right : Value) : Except OperatorError Value :=
  match Truth.ofValue? left, Truth.ofValue? right with
  | some a, some b => .ok (if op = .and then a.and b else a.or b).toValue
  | _, _ => Value.unsupported op left right

/-- Comparisons of value objects, as far as their kinds allow. -/
def byCapability (left : Value) (op : Operator) (right : Value) : Except OperatorError Value :=
  match left, right with
  | .custom a, .custom b =>
    match a.holds? op b with
    | some answer => .ok (.boolean answer)
    | none => Value.unsupported op left right
  | _, _ => Value.unsupported op left right

/-- The value of a binary operator. -/
def applyBinary (table : OperatorTable) (left : Value) (op : Operator) (right : Value) :
    Except OperatorError Value :=
  if op = .and ∨ op = .or then logical left op right
  else if left.isNull || right.isNull then .ok .null
  else match table.binary left.type op right.type with
    | some rule => rule left right
    | none => byCapability left op right

/-- The value of a unary operator, before or after its operand. -/
def applyUnary (table : OperatorTable) (op : Operator) (operand : Value) :
    Except OperatorError Value :=
  if op = .isNull then .ok (.boolean operand.isNull)
  else if op = .isNotNull then .ok (.boolean !operand.isNull)
  else if operand.isNull then .ok .null
  else match table.unary op operand.type with
    | some rule => rule operand
    | none => .error (.unsupportedUnary op operand.typeName)

end OperatorTable

end DataFilter
