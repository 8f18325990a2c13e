import DataFilter.Operator

/-!
# SQL conditions

A condition is a tree of operators over numbered parameters and columns. A collection test is an
`EXISTS` over the elements of an array or over the rows of a table that are joined to the row
outside. Writing a condition adds the parentheses that its reading needs: around an operand that
binds less tightly than the operator it belongs to, and around one that binds equally where the
grouping of the operator does not already say so.
-/

namespace DataFilter.Sql

/-- An equation between a column of the inner row and one of the outer row. -/
structure Join where
  child : String
  /-- The name of the outer row. -/
  owner : String
  parent : String
  deriving DecidableEq

/-- What a collection test ranges over. -/
inductive Source where
  /-- The elements of an array, found by its dotted name. -/
  | elements (array : List String)
  /-- The rows of a table that satisfy the joins. -/
  | rows (table : String) (joins : List Join)
  deriving DecidableEq

/-- An SQL condition. -/
inductive Condition where
  /-- The parameter with a number, counted from one. -/
  | parameter (number : Nat)
  /-- A column by its dotted name. -/
  | column (names : List String)
  | prefixed (op : Operator) (operand : Condition) (grouping : Associativity)
  | infixed (left : Condition) (op : Operator) (right : Condition) (grouping : Associativity)
  | postfixed (operand : Condition) (op : Operator) (grouping : Associativity)
  /-- Some element or row, under the name `rowName`, satisfies the condition. -/
  | exists (source : Source) (rowName : String) (condition : Condition)
  deriving DecidableEq

/-- The place of a condition in the one around it. -/
structure Place where
  /-- How tightly the operator around it binds. -/
  precedence : Nat
  /-- Whether parentheses are also needed at equal strength. -/
  wrapEqual : Bool

namespace Place

/-- Nothing around. -/
def top : Place := ⟨0, false⟩

/-- Whether an operator of this strength needs parentheses here. -/
def needsParens (place : Place) (own : Nat) : Bool :=
  own < place.precedence || own = place.precedence && place.wrapEqual

/-- The operand of a prefix operator. Signs do not meet without parentheses, since two of them
would begin a comment; `NOT` may be repeated if it groups from the right. -/
def afterPrefix (op : Operator) (grouping : Associativity) : Place :=
  ⟨op.precedence, op ≠ .not || grouping ≠ .right⟩

/-- The operand to the left of an operator. -/
def leftOf (op : Operator) (grouping : Associativity) : Place :=
  ⟨op.precedence, grouping ≠ .left⟩

/-- The operand to the right of an operator. -/
def rightOf (op : Operator) (grouping : Associativity) : Place :=
  ⟨op.precedence, grouping ≠ .right⟩

end Place

/-- A dotted name. -/
def dotted (names : List String) : String := ".".intercalate names

/-- A join equation, for the inner row `rowName`. -/
def Join.render (rowName : String) (join : Join) : String :=
  rowName ++ "." ++ join.child ++ " = " ++ join.owner ++ "." ++ join.parent

namespace Source

/-- The text between `FROM` and the condition on the elements. -/
def render (rowName : String) : Source → String
  | elements array => "unnest(" ++ dotted array ++ ") AS " ++ rowName ++ " WHERE "
  | rows table joins =>
    table ++ " AS " ++ rowName ++ " WHERE " ++
      String.join (joins.map fun join => join.render rowName ++ " AND ")

/-- The place of the condition on the elements. On rows it follows the joins behind an `AND`. -/
def place : Source → Place
  | elements _ => .top
  | rows _ _ => ⟨Operator.and.precedence, false⟩

end Source

/-- The text in front of the operand of a prefix operator. -/
def prefixText : Operator → String
  | .not => "NOT "
  | op => op.sql

/-- The text of a collection test, with that of what it ranges over and that of the condition on the
elements. -/
def existsText (source condition : String) : String :=
  "EXISTS (SELECT 1 FROM " ++ source ++ condition ++ ")"

/-- Text in parentheses, if they are needed. -/
def wrap (needed : Bool) (text : String) : String := if needed then "(" ++ text ++ ")" else text

namespace Condition

/-- The text of a condition in its place. -/
def renderIn (place : Place) : Condition → String
  | parameter number => "$" ++ toString number
  | column names => dotted names
  | prefixed op operand grouping =>
    wrap (place.needsParens op.precedence)
      (prefixText op ++ operand.renderIn (.afterPrefix op grouping))
  | infixed left op right grouping =>
    wrap (place.needsParens op.precedence)
      (left.renderIn (.leftOf op grouping) ++ " " ++ op.sql ++ " " ++
        right.renderIn (.rightOf op grouping))
  | postfixed operand op grouping =>
    wrap (place.needsParens op.precedence)
      (operand.renderIn (.leftOf op grouping) ++ " " ++ op.sql)
  | .exists source rowName condition =>
    existsText (source.render rowName) (condition.renderIn source.place)

/-- The text of a whole condition. -/
def render (condition : Condition) : String := condition.renderIn .top

end Condition

end DataFilter.Sql
