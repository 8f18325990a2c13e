import DataFilter.Template.Parser

/-!
# Derivations of the template grammar

A derivation is a syntax tree of the grammar, one constructor for each production. It says which
tokens it spells and which condition it means, and both without any parsing: `Derivation.tokens`
writes the productions out and `Derivation.tree` reads their meaning off the shape. A derivation of
`or` or `and` is a first part and the parts behind the separators, so that the meaning can group
them from the left. Whether `@` is the element under test is no part of a derivation: it depends on
where the derivation stands, and `Derivation.tree` is told so.
-/

namespace DataFilter.Grammar

/-- What a derivation derives. -/
inductive Category where
  | template | filter
  | or | orRest
  | and | andRest
  | unary | comparison | operand

/-- An operand of one token. -/
inductive Atom where
  | integer (n : Integer)
  | float (x : Binary64)
  | text (s : String)
  | boolean (b : Bool)
  | null
  | placeholder (p : Placeholder)

namespace Atom

def token : Atom → Token
  | integer n => .integer n
  | float x => .float x
  | text s => .text s
  | boolean b => .boolean b
  | null => .null
  | placeholder p => .placeholder p

def node : Atom → Node
  | integer n => .literal (.integer n)
  | float x => .literal (.float x)
  | text s => .literal (.text s)
  | boolean b => .literal (.boolean b)
  | null => .literal .null
  | placeholder p => .placeholder p

theorem token_injective {a b : Atom} (h : a.token = b.token) : a = b := by
  cases a <;> cases b <;> simp_all [token]

end Atom

/-- The sign of a comparison. -/
inductive Sign where
  | equal | notEqual | less | lessEqual | greater | greaterEqual

namespace Sign

def token : Sign → Token
  | equal => .equalEqual
  | notEqual => .notEqual
  | less => .less
  | lessEqual => .lessEqual
  | greater => .greater
  | greaterEqual => .greaterEqual

def operator : Sign → Operator
  | equal => .equal
  | notEqual => .notEqual
  | less => .lessThan
  | lessEqual => .lessThanEqual
  | greater => .greaterThan
  | greaterEqual => .greaterThanEqual

theorem token_injective {a b : Sign} (h : a.token = b.token) : a = b := by
  cases a <;> cases b <;> simp_all [token]

/-- What a comparison means. With a `null` on its right, `==` and `!=` are the null tests. -/
def compare (sign : Sign) (left : Node) (withNull : Bool) (right : Node) : Node :=
  match sign, withNull with
  | equal, true => .isNull left
  | notEqual, true => .isNotNull left
  | _, _ => .between left sign.operator right

end Sign

/-- What a reference begins with. -/
inductive Anchor where
  /-- `$` -/
  | document
  /-- `@` -/
  | here

namespace Anchor

def token : Anchor → Token
  | document => .dollar
  | here => .atSign

/-- The root that is meant, inside or outside of a collection test. -/
def root (inTest : Bool) : Anchor → Node
  | document => .globalScope
  | here => if inTest then .item else .globalScope

theorem token_injective {a b : Anchor} (h : a.token = b.token) : a = b := by
  cases a <;> cases b <;> simp_all [token]

end Anchor

/-- The tokens of a path: each name behind a point. -/
def pathTokens (path : List String) : List Token :=
  path.flatMap fun name => [.dot, .identifier name]

/-- `[*]` -/
def anyElement : List Token := [.openBracket, .star, .closeBracket]

/-- A derivation: a production, with the derivations of its parts. -/
inductive Derivation : Category → Type where
  /-- `template := '$' filter` -/
  | whole (filter : Derivation .filter) : Derivation .template
  /-- `template := '$' ('.' IDENT)+ '[' '*' ']' filter` -/
  | elements (path : List String) (named : path ≠ []) (filter : Derivation .filter) :
      Derivation .template
  /-- `filter := '[' '?' or ']'` -/
  | bracketed (condition : Derivation .or) : Derivation .filter
  /-- `or := and ('||' and)*` -/
  | or (first : Derivation .and) (rest : Derivation .orRest) : Derivation .or
  | orEnd : Derivation .orRest
  | orMore (next : Derivation .and) (rest : Derivation .orRest) : Derivation .orRest
  /-- `and := unary ('&&' unary)*` -/
  | and (first : Derivation .unary) (rest : Derivation .andRest) : Derivation .and
  | andEnd : Derivation .andRest
  | andMore (next : Derivation .unary) (rest : Derivation .andRest) : Derivation .andRest
  /-- `unary := '!' unary` -/
  | not (operand : Derivation .unary) : Derivation .unary
  /-- `unary := '(' or ')'` -/
  | group (condition : Derivation .or) : Derivation .unary
  /-- `unary := comparison` -/
  | plain (comparison : Derivation .comparison) : Derivation .unary
  /-- `comparison := operand` -/
  | single (operand : Derivation .operand) : Derivation .comparison
  /-- `comparison := operand ('==' | '!=' | '<' | '<=' | '>' | '>=') operand` -/
  | pair (left : Derivation .operand) (sign : Sign) (right : Derivation .operand) :
      Derivation .comparison
  /-- `operand := literal | placeholder` -/
  | atom (a : Atom) : Derivation .operand
  /-- `operand := ('@' | '$') ('.' IDENT)+` -/
  | field (anchor : Anchor) (path : List String) (named : path ≠ []) : Derivation .operand
  /-- `operand := ('@' | '$') ('.' IDENT)+ '[' '*' ']' filter` -/
  | test (anchor : Anchor) (path : List String) (named : path ≠ [])
      (filter : Derivation .filter) : Derivation .operand

/-- What a derivation means: the parts behind separators mean several conditions. -/
abbrev Meaning : Category → Type
  | .orRest | .andRest => List Node
  | _ => Node

namespace Derivation

/-- The tokens that a derivation spells. -/
@[simp]
def tokens : {c : Category} → Derivation c → List Token
  | _, whole filter => .dollar :: filter.tokens
  | _, elements path _ filter => .dollar :: pathTokens path ++ anyElement ++ filter.tokens
  | _, bracketed condition => .openBracket :: .question :: condition.tokens ++ [.closeBracket]
  | _, or first rest => first.tokens ++ rest.tokens
  | _, orEnd => []
  | _, orMore next rest => .orOr :: next.tokens ++ rest.tokens
  | _, and first rest => first.tokens ++ rest.tokens
  | _, andEnd => []
  | _, andMore next rest => .andAnd :: next.tokens ++ rest.tokens
  | _, not operand => .bang :: operand.tokens
  | _, group condition => .openParen :: condition.tokens ++ [.closeParen]
  | _, plain comparison => comparison.tokens
  | _, single operand => operand.tokens
  | _, pair left sign right => left.tokens ++ sign.token :: right.tokens
  | _, atom a => [a.token]
  | _, field anchor path _ => anchor.token :: pathTokens path
  | _, test anchor path _ filter =>
    anchor.token :: pathTokens path ++ anyElement ++ filter.tokens

/-- Whether an operand is the literal `null`. -/
def isNull : Derivation .operand → Bool
  | atom .null => true
  | _ => false

theorem eq_null {d : Derivation .operand} (h : d.isNull = true) : d = .atom .null := by
  cases d with
  | atom a => cases a <;> first | rfl | cases h
  | field => cases h
  | test => cases h

/-- The condition that a derivation means where it stands. Chains group from the left, parentheses
leave no trace, and the filter of a collection is where `@` is the element. -/
@[simp]
def tree (inTest : Bool) : {c : Category} → Derivation c → Meaning c
  | _, whole filter => filter.tree inTest
  | _, elements path _ filter => .collection (path.foldl .object .globalScope) (filter.tree true)
  | _, bracketed condition => condition.tree inTest
  | _, or first rest => .or (first.tree inTest) (rest.tree inTest)
  | _, orEnd => []
  | _, orMore next rest => next.tree inTest :: rest.tree inTest
  | _, and first rest => .and (first.tree inTest) (rest.tree inTest)
  | _, andEnd => []
  | _, andMore next rest => next.tree inTest :: rest.tree inTest
  | _, not operand => .not (operand.tree inTest)
  | _, group condition => condition.tree inTest
  | _, plain comparison => comparison.tree inTest
  | _, single operand => operand.tree inTest
  | _, pair left sign right => sign.compare (left.tree inTest) right.isNull (right.tree inTest)
  | _, atom a => a.node
  | _, field anchor path named =>
    .field (path.dropLast.foldl .object (anchor.root inTest)) (path.getLast named)
  | _, test anchor path _ filter =>
    .collection (path.foldl .object (anchor.root inTest)) (filter.tree true)

end Derivation

/-! ## Where a derivation ends

The grammar needs no look-ahead beyond one token: what may not follow a derivation is what would
prolong it. The strength of a token says which derivations it prolongs. -/

/-- How far a token reaches back: the weakest separators only join whole alternatives, points and
brackets prolong any reference. -/
def strength : Token → Nat
  | .orOr => 1
  | .andAnd => 2
  | .equalEqual | .notEqual | .less | .lessEqual | .greater | .greaterEqual => 3
  | .dot | .openBracket => 4
  | _ => 0

/-- What follows does not begin with a token of this strength or more. -/
def Ends (bound : Nat) (rest : List Token) : Prop :=
  ∀ token ∈ rest.head?, strength token < bound

/-- What a part ends before is no mark that would be strong enough to go on with. -/
theorem Ends.ne {bound : Nat} {rest : List Token} (h : Ends bound rest) {mark : Token}
    (strong : bound ≤ strength mark) : ∀ token ∈ rest.head?, token ≠ mark := by
  rintro token hmem rfl
  exact absurd (h token hmem) (Nat.not_lt.mpr strong)

theorem Ends.mono {m n : Nat} {rest : List Token} (h : Ends m rest) (hle : m ≤ n) : Ends n rest :=
  fun token hmem => Nat.lt_of_lt_of_le (h token hmem) hle

@[simp]
theorem ends_cons {n : Nat} {token : Token} {rest : List Token} :
    Ends n (token :: rest) ↔ strength token < n := by
  simp [Ends]

@[simp]
theorem ends_nil {n : Nat} : Ends n [] := by
  simp [Ends]

@[simp]
theorem strength_sign (sign : Sign) : strength sign.token = 3 := by cases sign <;> rfl

/-- The strength from which on a token prolongs a derivation. -/
def reach : Category → Nat
  | .or | .orRest => 1
  | .and | .andRest => 2
  | .unary | .comparison => 3
  | .operand => 4
  | .template | .filter => 5

end DataFilter.Grammar
