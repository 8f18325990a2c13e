import DataFilter.Operator
import DataFilter.Value

/-!
# Condition trees

A condition is a tree of operators over literals, placeholders and references into a document. A
reference is a chain of scopes that ends at a root: `$.user.age` reads the field `age` of the scope
`user` of the whole document, and inside a collection test `@.price` reads a field of the element
under test. Trees are plain data: nothing keeps a program from putting an operator or a reference
where it has no meaning, and every use of a tree says what it makes of that.
-/

namespace DataFilter

/-- What a placeholder accepts. -/
inductive PlaceholderKind where
  /-- `%s`: any value, as it is. -/
  | any
  /-- `%d`: a whole number. -/
  | integer
  /-- `%f`: a binary number. -/
  | float
  deriving DecidableEq, Repr

namespace PlaceholderKind

/-- The letter that asks for this kind. -/
def letter : PlaceholderKind → Char
  | any => 's'
  | integer => 'd'
  | float => 'f'

/-- The kind that a letter asks for. -/
def ofLetter? : Char → Option PlaceholderKind
  | 's' => some any
  | 'd' => some integer
  | 'f' => some float
  | _ => none

/-- The name in messages. -/
def name : PlaceholderKind → String
  | any => "any"
  | integer => "integer"
  | float => "float"

theorem ofLetter?_letter (kind : PlaceholderKind) : ofLetter? kind.letter = some kind := by
  cases kind <;> rfl

end PlaceholderKind

/-- Which parameter fills a placeholder. -/
inductive PlaceholderKey where
  /-- The parameter at a position, counted from zero. -/
  | position (index : Nat)
  | name (name : String)
  deriving DecidableEq, Repr

/-- A slot that a parameter fills. -/
structure Placeholder where
  key : PlaceholderKey
  kind : PlaceholderKind
  deriving DecidableEq, Repr

/-- The spelling in a template: `%d`, or `%(name)d`. -/
def Placeholder.render (p : Placeholder) : String :=
  match p.key with
  | .position _ => "%" ++ p.kind.letter.toString
  | .name name => "%(" ++ name ++ ")" ++ p.kind.letter.toString

/-- What stands in the place of a value. -/
inductive Operand where
  | literal (value : Value)
  | placeholder (placeholder : Placeholder)

/-- A node of a condition tree. -/
inductive Node where
  | value (operand : Operand)
  /-- The whole document, `$`. -/
  | globalScope
  /-- The element under test, `@` in a collection test. -/
  | item
  /-- A scope named in another one. -/
  | object (parent : Node) (name : String)
  /-- A value read from a scope. -/
  | field (scope : Node) (name : String)
  /-- Some element of `parent` satisfies `predicate`. -/
  | collection (parent : Node) (predicate : Node)
  /-- An operator in front of its operand. -/
  | prefixed (op : Operator) (operand : Node) (grouping : Associativity)
  /-- An operator between its operands. -/
  | infixed (left : Node) (op : Operator) (right : Node) (grouping : Associativity)
  /-- An operator after its operand. -/
  | postfixed (operand : Node) (op : Operator) (grouping : Associativity)
  deriving Inhabited

namespace Node

/-! ## Building trees -/

def literal (v : Value) : Node := value (.literal v)

def placeholder (p : Placeholder) : Node := value (.placeholder p)

/-- An operator in front of its operand, with the grouping of the operator. -/
def before (op : Operator) (operand : Node) : Node := prefixed op operand op.associativity

/-- An operator between its operands, with the grouping of the operator. -/
def between (left : Node) (op : Operator) (right : Node) : Node :=
  infixed left op right op.associativity

/-- An operator after its operand. -/
def after (operand : Node) (op : Operator) : Node := postfixed operand op .left

/-- All of the conditions, grouped from the left. -/
def and (first : Node) (rest : List Node) : Node := rest.foldl (between · .and ·) first

/-- One of the conditions, grouped from the left. -/
def or (first : Node) (rest : List Node) : Node := rest.foldl (between · .or ·) first

def not (operand : Node) : Node := before .not operand

/-- Some element satisfies the predicate. -/
def any (parent predicate : Node) : Node := collection parent predicate

/-- Every element satisfies the predicate: none satisfies its negation. -/
def all (parent predicate : Node) : Node := not (collection parent (not predicate))

def isNull (operand : Node) : Node := after operand .isNull

def isNotNull (operand : Node) : Node := after operand .isNotNull

/-! ## Placeholders -/

/-- Whether a placeholder is left in the tree. -/
def hasPlaceholders : Node → Bool
  | value (.placeholder _) => true
  | value (.literal _) | globalScope | item => false
  | object parent _ => parent.hasPlaceholders
  | field scope _ => scope.hasPlaceholders
  | collection parent predicate => parent.hasPlaceholders || predicate.hasPlaceholders
  | prefixed _ operand _ => operand.hasPlaceholders
  | infixed left _ right _ => left.hasPlaceholders || right.hasPlaceholders
  | postfixed operand _ _ => operand.hasPlaceholders

/-! ## Equality -/

/-- Equality of trees part by part, with literals compared as values. -/
def equal : Node → Node → Bool
  | value (.literal a), value (.literal b) => a.equal b
  | value (.placeholder a), value (.placeholder b) => a = b
  | globalScope, globalScope => true
  | item, item => true
  | object a m, object b n => equal a b && m == n
  | field a m, field b n => equal a b && m == n
  | collection a p, collection b q => equal a b && equal p q
  | prefixed o a g, prefixed p b h => o = p && equal a b && g = h
  | infixed a o b g, infixed c p d h => equal a c && o = p && equal b d && g = h
  | postfixed a o g, postfixed b p h => equal a b && o = p && g = h
  | _, _ => false

end Node

end DataFilter
