import DataFilter.Number.Decimal.Arithmetic
import DataFilter.Operation.Comparison
import DataFilter.Operator

/-!
# Arithmetic on values

Whole numbers stay whole and are refused when they leave 64 bits; only a division that is not even
gives a binary number. A whole and a binary number are computed in decimals, so that `0.1 * 3` is
`0.3`, and the result is a whole number again where it is one. Next to a decimal everything is a
decimal. Binary numbers beyond the decimal range are computed as they are. Division by zero of any
type is refused.

Instants and durations combine as points and spans of time do.
-/

namespace DataFilter

/-- The five operations of arithmetic. -/
inductive Arithmetic where
  | add | subtract | multiply | divide | modulo
  deriving DecidableEq, Repr

namespace Arithmetic

/-- The operator that stands for the operation. -/
def operator : Arithmetic → Operator
  | add => .add
  | subtract => .subtract
  | multiply => .multiply
  | divide => .divide
  | modulo => .modulo

/-- The operation that an operator stands for. -/
def ofOperator? : Operator → Option Arithmetic
  | .add => some add
  | .subtract => some subtract
  | .multiply => some multiply
  | .divide => some divide
  | .modulo => some modulo
  | _ => none

/-- A result that is there, or the overflow of the operation. -/
def checked {α : Type} (op : Arithmetic) : Option α → Except OperatorError α
  | some a => .ok a
  | none => .error (.overflow op.operator)

/-- Whole numbers. The remainder has the sign of `a`, and where the quotient does not fit there is
no remainder either. -/
def integers (op : Arithmetic) (a b : Integer) : Except OperatorError Value :=
  let whole (n : Int) := (op.checked (Integer.ofInt? n)).map Value.integer
  match op with
  | add => whole (a.toInt + b.toInt)
  | subtract => whole (a.toInt - b.toInt)
  | multiply => whole (a.toInt * b.toInt)
  | divide =>
    if b.toInt = 0 then .error .divisionByZero
    else if a.toInt.tmod b.toInt ≠ 0 then
      .ok (.float ((Binary64.ofInt a.toInt).div (Binary64.ofInt b.toInt)))
    else whole (a.toInt.tdiv b.toInt)
  | modulo =>
    if b.toInt = 0 then .error .divisionByZero
    else do
      let _ ← whole (a.toInt.tdiv b.toInt)
      whole (a.toInt.tmod b.toInt)

/-- Binary numbers. -/
def floats (op : Arithmetic) (x y : Binary64) : Except OperatorError Binary64 :=
  match op with
  | add => .ok (x.add y)
  | subtract => .ok (x.sub y)
  | multiply => .ok (x.mul y)
  | divide => if y.isZero then .error .divisionByZero else .ok (x.div y)
  | modulo => if y.isZero then .error .divisionByZero else .ok (x.rem y)

/-- Decimals. -/
def decimals (op : Arithmetic) (a b : Decimal) : Except OperatorError Decimal :=
  match op with
  | add => op.checked (a.add? b)
  | subtract => op.checked (a.sub? b)
  | multiply => op.checked (a.mul? b)
  | divide => if b.isZero then .error .divisionByZero else op.checked (a.div? b)
  | modulo => if b.isZero then .error .divisionByZero else op.checked (a.rem? b)

/-- The simplest number with the value of a decimal: a whole one, or else a binary one. -/
def narrow (d : Decimal) : Value :=
  match if d.isWhole then d.truncate? else none with
  | some n => .integer n
  | none => .float d.toBinary64

/-- A whole and a binary number, in either order. -/
def mixed (op : Arithmetic) (left right : Value) (x y : Binary64) : Except OperatorError Value :=
  match left.asDecimal?, right.asDecimal? with
  | some a, some b => (op.decimals a b).map narrow
  | _, _ => (op.floats x y).map .float

/-- A decimal and another number, in either order. -/
def withDecimal (op : Arithmetic) (left right : Value) (x y : Binary64) :
    Except OperatorError Value :=
  match left.asDecimal?, right.asDecimal? with
  | some a, some b => (op.decimals a b).map .decimal
  | _, _ => (op.floats x y).map .float

/-- Two numbers of any types. -/
def apply (op : Arithmetic) (left right : Value) : Except OperatorError Value :=
  match left, right with
  | .integer a, .integer b => op.integers a b
  | .float x, .float y => (op.floats x y).map .float
  | .integer a, .float y => op.mixed left right (.ofInt a.toInt) y
  | .float x, .integer b => op.mixed left right x (.ofInt b.toInt)
  | .decimal a, .decimal b => (op.decimals a b).map .decimal
  | .decimal a, .integer b => op.withDecimal left right a.toBinary64 (.ofInt b.toInt)
  | .integer a, .decimal b => op.withDecimal left right (.ofInt a.toInt) b.toBinary64
  | .decimal a, .float y => op.withDecimal left right a.toBinary64 y
  | .float x, .decimal b => op.withDecimal left right x b.toBinary64
  | _, _ => .error (.unsupported op.operator left.typeName right.typeName)

end Arithmetic

/-- An operation that is not there for operands of these types. -/
def Value.unsupported (op : Operator) (left right : Value) : Except OperatorError Value :=
  .error (.unsupported op left.typeName right.typeName)

/-- A shift of a whole number by 0 to 63 places. To the left, bits beyond the word are lost; to the
right, the sign is kept. -/
def Value.shift (op : Operator) (left right : Value) : Except OperatorError Value :=
  match left, right with
  | .integer a, .integer b =>
    if 0 ≤ b.toInt ∧ b.toInt < 64 then
      let power : Int := Nat.pow 2 b.toInt.toNat
      .ok (.integer (.wrap (if op = .leftShift then a.toInt * power else a.toInt / power)))
    else .error (.shiftOutOfRange b)
  | _, _ => unsupported op left right

/-- Two texts, one after the other. -/
def Value.concatenate (left right : Value) : Except OperatorError Value :=
  match left, right with
  | .text a, .text b => .ok (.text (a ++ b))
  | _, _ => unsupported .add left right

/-- The opposite number or span. -/
def Value.negate (operand : Value) : Except OperatorError Value :=
  match operand with
  | .integer n =>
    match Integer.ofInt? (-n.toInt) with
    | some m => .ok (.integer m)
    | none => .error (.overflow .negative)
  | .float x => .ok (.float x.neg)
  | .decimal d => .ok (.decimal d.neg)
  | .duration d => .ok (.duration d.neg)
  | v => .error (.unsupportedUnary .negative v.typeName)

/-- The opposite truth value. -/
def Value.complement (operand : Value) : Except OperatorError Value :=
  match operand with
  | .boolean b => .ok (.boolean !b)
  | v => .error (.unsupportedUnary .not v.typeName)

/-! ## Time -/

/-- Whether a whole number can count durations: it fits a signed 32-bit word. -/
def Integer.isFactor (n : Integer) : Bool := -2147483648 ≤ n.toInt ∧ n.toInt < 2147483648

/-- A duration taken `n` times. -/
def Duration.times (d : Duration) (n : Integer) : Except OperatorError Value :=
  (Arithmetic.multiply.checked (if n.isFactor then d.mul? n.toInt else none)).map .duration

/-- The sum of points and spans of time. -/
def Value.addTime (left right : Value) : Except OperatorError Value :=
  match left, right with
  | .instant t, .duration d | .duration d, .instant t =>
    (Arithmetic.add.checked (t.add? d)).map .instant
  | .duration a, .duration b => (Arithmetic.add.checked (a.add? b)).map .duration
  | _, _ => unsupported .add left right

/-- The difference of points and spans of time. -/
def Value.subtractTime (left right : Value) : Except OperatorError Value :=
  match left, right with
  | .instant a, .instant b => .ok (.duration (a.since b))
  | .instant t, .duration d => (Arithmetic.subtract.checked (t.sub? d)).map .instant
  | .duration a, .duration b => (Arithmetic.subtract.checked (a.sub? b)).map .duration
  | _, _ => unsupported .subtract left right

/-- A duration taken a number of times. -/
def Value.multiplyTime (left right : Value) : Except OperatorError Value :=
  match left, right with
  | .duration d, .integer n | .integer n, .duration d => d.times n
  | _, _ => unsupported .multiply left right

/-- A part of a duration. -/
def Value.divideTime (left right : Value) : Except OperatorError Value :=
  match left, right with
  | .duration d, .integer n =>
    if n.toInt = 0 then .error .divisionByZero
    else (Arithmetic.divide.checked (if n.isFactor then d.div? n.toInt else none)).map .duration
  | _, _ => unsupported .divide left right

end DataFilter
