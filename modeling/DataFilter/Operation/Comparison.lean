import DataFilter.Operator
import DataFilter.Value

/-!
# Comparing values

Numbers are comparable whatever their types. A whole number meets a binary one as the nearest
binary number, a binary number meets a decimal as a decimal where it is one, and else the decimal
is turned into a binary number. Other values are comparable with values of their own type. What has
no order with its partner, like `nan`, makes every comparison false except `!=`. Value objects are
asked what they say of each other.
-/

namespace DataFilter

namespace Value

/-- A number as a decimal, if it is one. -/
def asDecimal? : Value → Option Decimal
  | integer n => some (.ofInteger n)
  | float x => Decimal.ofBinary64? x
  | decimal d => some d
  | _ => none

/-- A binary number against a decimal. -/
def compareFloatDecimal? (x : Binary64) (d : Decimal) : Option Ordering :=
  match Decimal.ofBinary64? x with
  | some exact => some (exact.compare d)
  | none => x.compare? d.toBinary64

/-- The order of two values, where they have one. -/
def compare? : Value → Value → Option Ordering
  | integer a, integer b => some (a.compare b)
  | float x, float y => x.compare? y
  | integer a, float y => (Binary64.ofInt a.toInt).compare? y
  | float x, integer b => x.compare? (Binary64.ofInt b.toInt)
  | float x, decimal d => compareFloatDecimal? x d
  | decimal d, float y => (compareFloatDecimal? y d).map Ordering.swap
  | decimal a, decimal b => some (a.compare b)
  | decimal a, integer b => some (a.compare (.ofInteger b))
  | integer a, decimal b => some ((Decimal.ofInteger a).compare b)
  | text a, text b => some (compare a b)
  | boolean a, boolean b => some (compare a b)
  | instant a, instant b => some (a.compare b)
  | duration a, duration b => some (a.compare b)
  | _, _ => none

end Value

/-- What a comparison says of operands in this order. It is false for an operator that compares
nothing. -/
def Operator.holds : Operator → Option Ordering → Bool
  | equal, order => order == some .eq
  | notEqual, order => order != some .eq
  | lessThan, order => order == some .lt
  | lessThanEqual, order => order == some .lt || order == some .eq
  | greaterThan, order => order == some .gt
  | greaterThanEqual, order => order == some .gt || order == some .eq
  | _, _ => false

/-! ## Value objects -/

/-- The comparison that an operator asks of an order, if it asks for one. -/
def Ordered.relation? (order : Ordered) : Operator → Option (ObjectView → ObjectView → Option Bool)
  | .greaterThan => some order.greaterThan?
  | .greaterThanEqual => some order.greaterThanEqual?
  | .lessThan => some order.lessThan?
  | .lessThanEqual => some order.lessThanEqual?
  | _ => none

namespace ValueObject

/-- The capability of the first of two objects, if the second has it too. -/
def shared? {α : Type} (capability : ObjectKind → Option α) (a b : ValueObject) : Option α :=
  (capability a.kind).filter fun _ => (capability b.kind).isSome

/-- What the first of two objects says of their equality, if both can be tested for it. -/
def answersEqual? (a b : ValueObject) : Option Bool :=
  (a.shared? ObjectKind.equatable b).bind (·.equal? a.view b.view)

/-- What a comparison says of two value objects. Both need the capability that the operator asks
for, an equality for `==` and `!=` and an order for the others. The one to the left answers. -/
def holds? (op : Operator) (a b : ValueObject) : Option Bool :=
  match op with
  | .equal => a.answersEqual? b
  | .notEqual => (a.answersEqual? b).map (!·)
  | op =>
    (a.shared? ObjectKind.ordered b).bind fun order =>
      (order.relation? op).bind fun relation => relation a.view b.view

end ValueObject

end DataFilter
