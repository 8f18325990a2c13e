import DataFilter.Evaluation.Context
import DataFilter.Node.Render
import DataFilter.Node.Scope
import DataFilter.Operation.Table

/-!
# Deciding a tree

A session walks a tree over a context. Visiting a scope opens it on a stack, and reading a name
takes the innermost scope off again; visiting anything else leaves its value as the current one.
Elements under test lie on a stack of their own. A session lives on after each walk and after each
failure, with whatever the walk has left behind; `Node.decide` makes a fresh one for a whole
condition.
-/

namespace DataFilter

/-- An open scope. -/
inductive Scope where
  /-- The context of the session. -/
  | document
  /-- A value found in another scope, or the element under test. -/
  | nested (v : Value)

/-- What a session decides trees with. -/
structure Setting where
  table : OperatorTable
  context : Context

/-- The state of a session. -/
structure Session where
  /-- The open scopes, the innermost first. -/
  scopes : List Scope
  /-- The elements under test, the innermost first. -/
  items : List Value
  /-- The value of the expression visited last. -/
  current : Option Value

/-- A step of a session, which may fail but leaves a state either way. -/
abbrev Step (α : Type) := ExceptT EvalError (StateM Session) α

namespace Session

/-- A session before its first step. -/
def fresh : Session := ⟨[], [], none⟩

/-- The truth of the current value. Unknown counts as false. -/
def result (s : Session) : Except EvalError Bool :=
  match s.current with
  | some (.boolean b) => .ok b
  | some .null => .ok false
  | some v => .error (.notBoolean v.typeName)
  | none => .error (.notBoolean "nothing")

end Session

/-- What an open scope answers to a name. -/
def Scope.get (setting : Setting) (name : String) : Scope → Except EvalError (Option Value)
  | document => setting.context.get name
  | nested v => .ok (v.get? name)

namespace Step

/-- A result that does not depend on the session. -/
def lift {α : Type} (result : Except EvalError α) : Step α := ExceptT.mk (pure result)

/-- A result of an operator. -/
def ofOperator (result : Except OperatorError Value) : Step Value :=
  lift (result.mapError .operator)

/-- Opens a scope. -/
def openScope (scope : Scope) : Step Unit :=
  modify fun s => { s with scopes := scope :: s.scopes }

/-- Closes the innermost scope. -/
def closeScope : Step Scope := do
  match (← get).scopes with
  | [] => throw .itemOutsideCollection
  | scope :: rest =>
    modify fun s => { s with scopes := rest }
    pure scope

/-- Leaves a value as the current one. -/
def give (v : Value) : Step Unit := modify fun s => { s with current := some v }

/-- Takes the value that a visit to a node has left. A scope is no value. -/
def valueOf (node : Node) (visit : Step Unit) : Step Value := do
  if node.isScope then throw (.scopeAsValue node.render)
  visit
  match (← get).current with
  | some v =>
    modify fun s => { s with current := none }
    pure v
  | none => throw (.scopeAsValue node.render)

/-- Reads a name in the scope that a visit to its parent opens. -/
def resolve (setting : Setting) (parent : Node) (visit : Step Unit) (name : String) :
    Step Value := do
  visit
  let scope ← closeScope
  match ← lift (scope.get setting name) with
  | some v => pure v
  | none => throw (.keyNotFound (parent.render ++ "." ++ name))

/-- Tests an element: the test runs with it on the stack of elements, from which it is taken in any
case. -/
def testing (element : Value) (test : Step Value) : Step Value := do
  modify fun s => { s with items := element :: s.items }
  let outcome ← ExceptT.mk (test.run >>= fun result => do
    modify fun s => { s with items := s.items.tail }
    pure (.ok result))
  lift outcome

/-- Tests elements one after the other until one satisfies the test. The answer joins theirs by
`OR`. -/
def someElement (table : OperatorTable) (test : Step Value) : Value → List Value → Step Value
  | outcome, [] => pure outcome
  | outcome, element :: rest => do
    let matched ← testing element test
    let joined ← ofOperator (table.applyBinary outcome .or matched)
    match joined with
    | .boolean true => pure joined
    | _ => someElement table test joined rest

/-- The elements of a scope that is a collection. NULL has none. -/
def elements (setting : Setting) (parent : Node) (scope : Scope) : Step (List Value) := do
  match ← lift (scope.get setting elementsName), scope with
  | some (.array items), _ => pure items
  | none, .nested .null => pure []
  | _, _ => throw (.notACollection parent.render)

/-- Whether the left operand alone decides `AND` or `OR`. -/
def decides (op : Operator) (left : Value) : Bool :=
  match op, left with
  | .and, .boolean false => true
  | .or, .boolean true => true
  | _, _ => false

end Step

open Step in
/-- Visits a node: opens a scope, or leaves a value. -/
def Node.visit (setting : Setting) : Node → Step Unit
  | value (.literal v) => give v
  | value (.placeholder p) => throw (.unboundPlaceholder p.render)
  | globalScope => openScope .document
  | item => do
    match (← get).items with
    | [] => throw .itemOutsideCollection
    | element :: _ => openScope (.nested element)
  | object parent name => do
    let v ← resolve setting parent (parent.visit setting) name
    openScope (.nested v)
  | field scope name => do
    let v ← resolve setting scope (scope.visit setting) name
    give v
  | collection parent predicate => do
    parent.visit setting
    let scope ← closeScope
    let items ← elements setting parent scope
    let test := valueOf predicate (predicate.visit setting)
    give (← someElement setting.table test (.boolean false) items)
  | prefixed op operand _ | postfixed operand op _ => do
    let v ← valueOf operand (operand.visit setting)
    give (← ofOperator (setting.table.applyUnary op v))
  | infixed left op right _ => do
    let l ← valueOf left (left.visit setting)
    if decides op l then give l
    else
      let r ← valueOf right (right.visit setting)
      give (← ofOperator (setting.table.applyBinary l op r))

/-- The value of a tree in a session. -/
def Node.evaluate (setting : Setting) (node : Node) : Step Value :=
  Step.valueOf node (node.visit setting)

/-- Whether a context satisfies a condition, by the rules of a table. -/
def Node.decideWith (table : OperatorTable) (context : Context) (node : Node) :
    Except EvalError Bool :=
  match (node.visit ⟨table, context⟩).run Session.fresh with
  | (.ok (), session) => session.result
  | (.error e, _) => .error e

/-- Whether a context satisfies a condition. -/
def Node.decide (context : Context) (node : Node) : Except EvalError Bool :=
  node.decideWith .standard context

end DataFilter
