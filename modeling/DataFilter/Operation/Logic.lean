import DataFilter.Operator
import DataFilter.Value

/-!
# Three-valued logic

A truth value is true, false or unknown. Unknown is NULL: a conjunction or disjunction is unknown
only where the known operand does not decide it.
-/

namespace DataFilter

/-- A truth value; `none` is unknown. -/
abbrev Truth := Option Bool

namespace Truth

def and : Truth → Truth → Truth
  | some false, _ => some false
  | _, some false => some false
  | some true, some true => some true
  | _, _ => none

def or : Truth → Truth → Truth
  | some true, _ => some true
  | _, some true => some true
  | some false, some false => some false
  | _, _ => none

def not : Truth → Truth := Option.map (!·)

/-- A truth value as a value. -/
def toValue : Truth → Value
  | some b => .boolean b
  | none => .null

/-- The truth value that a boolean or NULL is. -/
def ofValue? : Value → Option Truth
  | .boolean b => some (some b)
  | .null => some none
  | _ => none

theorem ofValue?_toValue (t : Truth) : ofValue? t.toValue = some t := by
  cases t <;> rfl

end Truth

end DataFilter
