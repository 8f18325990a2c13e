import DataFilter.Node

/-!
# Filling placeholders

Binding puts parameters in the place of placeholders. A placeholder may ask for a whole or a binary
number, and then its parameter is converted, if that changes nothing about its value. NULL fills
every placeholder.
-/

namespace DataFilter

/-- The parameters of one use of a tree. -/
structure Parameters where
  positional : List Value
  named : Entries Value

/-- No parameters. -/
def Parameters.empty : Parameters := ⟨[], []⟩

/-- Why a tree cannot be bound. -/
inductive BindError where
  | missingPositional (index : Nat)
  | missingNamed (name : String)
  /-- The parameter is not of the kind that the placeholder asks for. -/
  | conversion (placeholder : Placeholder) (actual : String)
  deriving DecidableEq

def BindError.message : BindError → String
  | missingPositional index => "Missing positional parameter " ++ toString index
  | missingNamed name => "Missing named parameter '" ++ name ++ "'"
  | conversion placeholder actual =>
    "Cannot bind " ++ actual ++ " to placeholder " ++ placeholder.render ++ ": expected " ++
      placeholder.kind.name

namespace Parameters

/-- The parameter of a placeholder. -/
def get (params : Parameters) (placeholder : Placeholder) : Except BindError Value :=
  match placeholder.key with
  | .position index =>
    match params.positional[index]? with
    | some v => .ok v
    | none => .error (.missingPositional index)
  | .name name =>
    match params.named.get? name with
    | some v => .ok v
    | none => .error (.missingNamed name)

end Parameters

/-- The value as a placeholder of this kind takes it. -/
def PlaceholderKind.convert? : PlaceholderKind → Value → Option Value
  | any, v => some v
  | _, .null => some .null
  | integer, v => v.asInteger?.map .integer
  | float, v => v.asFloat?.map .float

/-- What fills a placeholder. -/
def Placeholder.fill (placeholder : Placeholder) (params : Parameters) :
    Except BindError Value := do
  let v ← params.get placeholder
  match placeholder.kind.convert? v with
  | some converted => pure converted
  | none => throw (.conversion placeholder v.typeName)

/-- The tree with every placeholder filled, from left to right. -/
def Node.bind (params : Parameters) : Node → Except BindError Node
  | value (.placeholder p) => return literal (← p.fill params)
  | value (.literal v) => return literal v
  | globalScope => return globalScope
  | item => return item
  | object parent name => return object (← parent.bind params) name
  | field scope name => return field (← scope.bind params) name
  | collection parent predicate =>
    return collection (← parent.bind params) (← predicate.bind params)
  | prefixed op operand grouping => return prefixed op (← operand.bind params) grouping
  | infixed left op right grouping =>
    return infixed (← left.bind params) op (← right.bind params) grouping
  | postfixed operand op grouping => return postfixed (← operand.bind params) op grouping

end DataFilter
