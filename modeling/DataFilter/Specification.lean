import DataFilter.Binding
import DataFilter.Evaluation.Session
import DataFilter.Sql.Compile
import DataFilter.Template.Parser

/-!
# Specifications

A specification is a template with its tree, read once and used with different parameters: bound, to
decide whether data satisfies it, and compiled to SQL.
-/

namespace DataFilter

/-- Why a specification fails in use. -/
inductive Error where
  | template (error : SyntaxError)
  | binding (error : BindError)
  | evaluation (error : EvalError)
  | compilation (error : Sql.CompileError)
  deriving DecidableEq

def Error.message : Error → String
  | template e => e.message
  | binding e => e.message
  | evaluation e => e.message
  | compilation e => e.message

/-- A template and its tree, placeholders included. -/
structure Specification where
  template : String
  tree : Node

namespace Specification

/-- The specification of a template. -/
def parse (template : String) : Except SyntaxError Specification := do
  return ⟨template, ← Node.parse template⟩

/-- The specification of a tree, with the template that the tree is written as. -/
def ofTree (tree : Node) : Specification := ⟨"$[?(" ++ tree.render ++ ")]", tree⟩

/-- The tree with its placeholders filled. A tree without placeholders needs no parameters. -/
def bind (spec : Specification) (params : Parameters) : Except BindError Node :=
  if spec.tree.hasPlaceholders then spec.tree.bind params else .ok spec.tree

/-- Whether a context satisfies the specification. -/
def isSatisfiedBy (spec : Specification) (context : Context) (params : Parameters) :
    Except Error Bool := do
  let tree ← (spec.bind params).mapError .binding
  (tree.decide context).mapError .evaluation

/-- The SQL condition of the specification. -/
def compile (spec : Specification) (params : Parameters) (around : Sql.Surroundings) :
    Except Error Sql.Compiled := do
  let tree ← (spec.bind params).mapError .binding
  (Sql.ofNode around tree).mapError .compilation

end Specification

end DataFilter
