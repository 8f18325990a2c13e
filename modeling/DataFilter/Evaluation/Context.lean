import DataFilter.Operator
import DataFilter.Value

/-!
# What conditions are decided against

A context answers names: with a value, with nothing if it does not know the name, or with a failure
of its own, which is usually one of the look-up but can be any. A collection answers the name `*`
with its elements. Values are contexts too: an object knows its entries, an array its elements, and
other values know nothing.
-/

namespace DataFilter

/-- A look-up that failed. -/
structure LookupFailure where
  name : String
  message : String
  deriving DecidableEq

/-- Why a condition cannot be decided. -/
inductive EvalError where
  /-- The path leads to a name that nothing answers. -/
  | keyNotFound (path : String)
  /-- The condition has a value of this type, which is neither true nor false. -/
  | notBoolean (type : String)
  | notACollection (path : String)
  /-- There is no element under test, or no scope to read from. -/
  | itemOutsideCollection
  | scopeAsValue (path : String)
  | unboundPlaceholder (placeholder : String)
  | lookup (failure : LookupFailure)
  | operator (error : OperatorError)
  deriving DecidableEq

def EvalError.message : EvalError → String
  | keyNotFound path => "Key not found: " ++ path
  | notBoolean type => "Expected boolean result, got " ++ type
  | notACollection path => "Not a collection: " ++ path
  | itemOutsideCollection => "Item scope referenced outside of a collection predicate"
  | scopeAsValue path => "Scope " ++ path ++ " used where a value is expected"
  | unboundPlaceholder placeholder => "Placeholder " ++ placeholder ++ " is not bound"
  | lookup failure => "Lookup of '" ++ failure.name ++ "' failed: " ++ failure.message
  | operator error => error.message

/-- The name by which a collection answers its elements. -/
def elementsName : String := "*"

/-- Something that answers names. -/
structure Context where
  get : String → Except EvalError (Option Value)

/-- What a value answers to a name. -/
def Value.get? (v : Value) (name : String) : Option Value :=
  match v with
  | object entries => Entries.get? entries name
  | array _ => if name = elementsName then some v else none
  | _ => none

namespace Context

/-- A value as a context. -/
def ofValue (v : Value) : Context := ⟨fun name => .ok (v.get? name)⟩

/-- Named values as a context. -/
def ofEntries (entries : Entries Value) : Context := ⟨fun name => .ok (entries.get? name)⟩

/-- A context in which the look-up of some names fails. -/
def failing (context : Context) (failures : Entries String) : Context :=
  ⟨fun name =>
    match failures.get? name with
    | some message => .error (.lookup ⟨name, message⟩)
    | none => context.get name⟩

end Context

end DataFilter
