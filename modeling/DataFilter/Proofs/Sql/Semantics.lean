import DataFilter.Evaluation.Session
import DataFilter.Proofs.Sql.Reader

/-!
# What SQL conditions mean

The meaning of a condition that has been read, on one document. A column is a path into the row whose
name it begins with, or else into the document. Operators mean what they mean in the language, and of
the operands of `AND` and `OR` one that decides is enough. `EXISTS` is true or false and never
unknown: whether some element makes the condition true, not what becomes of the others. A condition
has no value where one of its parts has none.
-/

namespace DataFilter.Sql

/-- What columns and parameters refer to. -/
structure Scene where
  context : Context
  /-- The rows under test, by their names, the innermost first. -/
  rows : List (String × Value)
  parameters : List Value

namespace Scene

/-- Names are looked up as in the language. -/
def setting (scene : Scene) : Setting := ⟨.standard, scene.context⟩

/-- The scene with a row under test. -/
def inRow (scene : Scene) (rowName : String) (row : Value) : Scene :=
  { scene with rows := (rowName, row) :: scene.rows }

/-- Where a path leads from a scope, name by name. -/
def follow (scene : Scene) : Scope → List String → Option Scope
  | scope, [] => some scope
  | scope, name :: rest =>
    match scope.get scene.setting name with
    | .ok (some v) => scene.follow (.nested v) rest
    | _ => none

/-- What a dotted name refers to. -/
def find (scene : Scene) : List String → Option Scope
  | [] => some .document
  | first :: rest =>
    match scene.rows.lookup first with
    | some row => scene.follow (.nested row) rest
    | none => scene.follow .document (first :: rest)

/-- The value of a column. -/
def column (scene : Scene) (names : List String) : Option Value :=
  match scene.find names with
  | some (.nested v) => some v
  | _ => none

/-- The elements of an array. A NULL array has none. -/
def elements (scene : Scene) (names : List String) : Option (List Value) := do
  let scope ← scene.find names
  match scope.get scene.setting elementsName, scope with
  | .ok (some (.array items)), _ => some items
  | .ok none, .nested .null => some []
  | _, _ => none

end Scene

/-- A condition that has this value is true. -/
def isTrue : Option Value → Bool
  | some (.boolean true) => true
  | _ => false

/-- The value of a binary operator. -/
def connect (op : Operator) (left right : Option Value) : Option Value :=
  match op, left, right with
  | .and, some (.boolean false), _ | .and, _, some (.boolean false) => some (.boolean false)
  | .or, some (.boolean true), _ | .or, _, some (.boolean true) => some (.boolean true)
  | op, some l, some r => (OperatorTable.standard.applyBinary l op r).toOption
  | _, _, _ => none

/-- The value of a condition. Of tables other than the document's nothing is known. -/
def Phrase.value : Phrase → Scene → Option Value
  | parameter number, scene => scene.parameters[number - 1]?
  | column names, scene => scene.column names
  | prefixed op operand, scene | postfixed operand op, scene =>
    (operand.value scene).bind fun v => (OperatorTable.standard.applyUnary op v).toOption
  | infixed left op right, scene => connect op (left.value scene) (right.value scene)
  | .exists (.elements array) rowName condition, scene =>
    (scene.elements array).map fun items =>
      .boolean (items.any fun row => isTrue (condition.value (scene.inRow rowName row)))
  | .exists (.table _) _ _, _ => none

/-- The names of the rows that are tested in a condition. -/
def Phrase.rowNames : Phrase → List String
  | parameter _ | column _ => []
  | prefixed _ operand => operand.rowNames
  | infixed left _ right => left.rowNames ++ right.rowNames
  | postfixed operand _ => operand.rowNames
  | .exists _ rowName condition => rowName :: condition.rowNames

end DataFilter.Sql
