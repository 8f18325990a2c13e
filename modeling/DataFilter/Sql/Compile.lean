import DataFilter.Node.Render
import DataFilter.Node.Scope
import DataFilter.Schema
import DataFilter.Sql.Condition
import DataFilter.Sql.Identifier

/-!
# From trees to SQL

Compiling turns every literal into the next numbered parameter, every reference into a column, and
every collection into an `EXISTS` under a fresh name. A reference that begins at the element under
test belongs to the innermost `EXISTS`, one that begins at the document to the row outside of all of
them. Where a collection is stored is looked up in the table of the row that owns it; a collection
that no table describes is an array.
-/

namespace DataFilter.Sql

/-- Why a tree has no SQL. -/
inductive CompileError where
  | unboundPlaceholder (placeholder : String)
  | itemOutsideWildcard
  | invalidCollection
  | scopeAsValue (path : String)
  | invalidIdentifier (name : String)
  deriving DecidableEq

def CompileError.message : CompileError → String
  | unboundPlaceholder placeholder => "Placeholder " ++ placeholder ++ " is not bound"
  | itemOutsideWildcard => "Item scope referenced outside of a wildcard"
  | invalidCollection => "Collection parent must be a named scope"
  | scopeAsValue path => "Scope " ++ path ++ " used where a value is expected"
  | invalidIdentifier name => "Invalid SQL identifier '" ++ name ++ "'"

/-- A row that references can mean. -/
structure Row where
  /-- Its name. The row outside of all tests needs none if its table is not known. -/
  name : Option String
  /-- Its table, if the schema knows it. -/
  table : Option TableSchema

/-- Where a tree stands. -/
structure Surroundings where
  schema : Schema
  /-- The row of the whole condition. -/
  document : Row
  /-- The row of the innermost collection test. -/
  element : Option Row

/-- What has been written so far. -/
structure Output where
  parameters : List Value
  /-- How many collection tests have been named. -/
  aliases : Nat

/-- A step of compiling. -/
abbrev Step (α : Type) := StateT Output (Except CompileError) α

/-- Refuses what is no plain name. -/
def checkIdentifier (name : String) : Step Unit :=
  if isIdentifier name then pure () else throw (.invalidIdentifier name)

/-- Makes a value the next parameter. -/
def parameter (v : Value) : Step Condition := do
  modify fun out => { out with parameters := out.parameters ++ [v] }
  return .parameter (← get).parameters.length

/-- A name that no other collection test has. -/
def freshAlias (stem : String) : Step String := do
  modify fun out => { out with aliases := out.aliases + 1 }
  return stem ++ "_" ++ toString (← get).aliases

namespace Surroundings

/-- What names begin with in the scope of a chain: the name of the row under test, or nothing. -/
def base (around : Surroundings) (scope : Node) : Step (List String) :=
  match scope.root?, around.element with
  | some .document, _ => pure []
  | some .element, some row => pure row.name.toList
  | some .element, none => throw .itemOutsideWildcard
  | none, _ => throw (.scopeAsValue scope.render)

/-- The dotted name of what a scope chain and possibly a name below it lead to. -/
def reference (around : Surroundings) (scope : Node) (name : Option String) :
    Step (List String) := do
  let base ← around.base scope
  let names := scope.path ++ name.toList
  names.forM checkIdentifier
  return base ++ names

/-- The row that owns a collection. -/
def owner (around : Surroundings) (parent : Node) : Step Row :=
  match parent.root?, around.element with
  | some .element, some row => pure row
  | some .element, none => throw .itemOutsideWildcard
  | _, _ => pure around.document

/-- The joins of a relation to the row that owns it. A row without a name goes by the name of the
collection. -/
def joins (relation : Relation) (owner : Row) (name : String) : Step (List Join) := do
  if relation.keys.isEmpty then return []
  let reference := owner.name.getD name
  checkIdentifier reference
  relation.keys.mapM fun key => do
    checkIdentifier key.child
    checkIdentifier key.parent
    return ⟨key.child, reference, key.parent⟩

/-- What a collection test ranges over, and the row that it tests. -/
def collection (around : Surroundings) (parent : Node) (name : String) :
    Step (Source × String × Row) := do
  let owner ← around.owner parent
  match owner.table.bind (·.mapping? name) with
  | some (.relational relation) => do
    checkIdentifier relation.table
    let stem := relation.shortName.getD (singularize name)
    checkIdentifier stem
    let rowName ← freshAlias stem
    let joins ← joins relation owner name
    let table := around.schema.table? relation.table
    return (.rows relation.table joins, rowName, ⟨some rowName, table⟩)
  | _ => do
    let array ← around.reference parent none
    let rowName ← freshAlias (singularize name)
    return (.elements array, rowName, ⟨some rowName, none⟩)

end Surroundings

/-- The condition of a tree. -/
def compile (around : Surroundings) : Node → Step Condition
  | .value (.literal v) => parameter v
  | .value (.placeholder p) => throw (.unboundPlaceholder p.render)
  | .globalScope => throw (.scopeAsValue Node.globalScope.render)
  | .item => throw (.scopeAsValue Node.item.render)
  | .object parent name => throw (.scopeAsValue (Node.object parent name).render)
  | .field scope name => do return .column (← around.reference scope (some name))
  | .collection parent predicate => do
    match parent with
    | .object _ name =>
      let (source, rowName, row) ← around.collection parent name
      let condition ← compile { around with element := some row } predicate
      return .exists source rowName condition
    | _ => throw .invalidCollection
  | .prefixed op operand grouping => do return .prefixed op (← compile around operand) grouping
  | .infixed left op right grouping => do
    let l ← compile around left
    let r ← compile around right
    return .infixed l op r grouping
  | .postfixed operand op grouping => do return .postfixed (← compile around operand) op grouping

/-- SQL text with the values of its parameters, the first one for `$1`. -/
structure Compiled where
  sql : String
  parameters : List Value

/-- The surroundings of a condition on a table of a schema. -/
def Surroundings.ofTable (schema : Schema) (table : String) : Surroundings :=
  let known := schema.table? table
  ⟨schema, ⟨known.map (·.reference), known⟩, none⟩

/-- The surroundings of a condition on a table of which nothing is known. -/
def Surroundings.unknown : Surroundings := ⟨.empty, ⟨none, none⟩, none⟩

/-- The SQL of a whole tree. -/
def ofNode (around : Surroundings) (tree : Node) : Except CompileError Compiled := do
  let (condition, out) ← (compile around tree).run ⟨[], 0⟩
  return ⟨condition.render, out.parameters⟩

end DataFilter.Sql
