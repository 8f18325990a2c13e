import DataFilter.Template.Lexer

/-!
# From tokens to trees

```text
template   := '$' filter
            | '$' ('.' IDENT)+ '[' '*' ']' filter
filter     := '[' '?' or ']'
or         := and ('||' and)*
and        := unary ('&&' unary)*
unary      := '!' unary | '(' or ')' | comparison
comparison := operand (('==' | '!=' | '<' | '<=' | '>' | '>=') operand)?
operand    := literal | placeholder | access
access     := ('@' | '$') ('.' IDENT)+ ('[' '*' ']' filter)?
```

`&&` binds tighter than `||`, and both group from the left. In the filter behind `[*]` the sign `@`
is the element under test, elsewhere it is the document, as `$` is. A comparison of the form
`x == null` or `x != null` is a null test.

The grammar works on tokens alone: a rule takes tokens off the front, and a mismatch keeps the
tokens that it met. Positions come in at the end, where the mismatch is located in the template.
Only `Grammar.unary` calls itself, through the rules above and below it; it is bounded by the count
of tokens, and each of its calls has fewer tokens left than the one before.
-/

namespace DataFilter

/-- The token that a rule asks for is not the first of those that are left. -/
structure Mismatch where
  /-- What the rule asked for. -/
  wanted : String
  /-- The tokens that are left. -/
  remaining : List Token
  deriving DecidableEq

namespace Grammar

/-- A rule takes tokens off the front and gives what they mean, with the tokens that are left. -/
abbrev Rule (α : Type) := StateT (List Token) (Except Mismatch) α

/-- Refuses the tokens that are left. -/
def refuse {α : Type} (wanted : String) : Rule α := fun tokens => .error ⟨wanted, tokens⟩

/-- Takes off one given token. -/
def expect (token : Token) : Rule Unit := fun tokens =>
  match tokens with
  | first :: rest => if first = token then .ok ((), rest) else refuse token.describe tokens
  | [] => refuse token.describe tokens

/-- The names of a path: each a point and an identifier. -/
def names : List Token → Except Mismatch (List String × List Token)
  | .dot :: .identifier name :: rest => do
    let (more, rest) ← names rest
    pure (name :: more, rest)
  | .dot :: rest => refuse "a field name" rest
  | tokens => .ok ([], tokens)

/-- The scope that a path leads to. -/
def scope (root : Node) (path : List String) : Node := path.foldl .object root

/-- The comparison that a token stands for. -/
def comparison? : Token → Option Operator
  | .equalEqual => some .equal
  | .notEqual => some .notEqual
  | .less => some .lessThan
  | .lessEqual => some .lessThanEqual
  | .greater => some .greaterThan
  | .greaterEqual => some .greaterThanEqual
  | _ => none

/-- The null test that a comparison with `null` on the right stands for. -/
def nullTest? : Operator → Option Operator
  | .equal => some .isNull
  | .notEqual => some .isNotNull
  | _ => none

/-- The operand that a single token stands for. -/
def literal? : Token → Option Node
  | .integer n => some (.literal (.integer n))
  | .float x => some (.literal (.float x))
  | .text s => some (.literal (.text s))
  | .boolean b => some (.literal (.boolean b))
  | .null => some (.literal .null)
  | .placeholder p => some (.placeholder p)
  | _ => none

/-- What `@` stands for, inside or outside of a collection test. -/
def itemRoot (inTest : Bool) : Node := if inTest then .item else .globalScope

/-- Items with a separator between them after a first one, joined from the left; at most `count`. -/
def moreItems (item : Rule Node) (separator : Token) (join : Node → Node → Node) :
    Nat → Node → Rule Node
  | 0, left => pure left
  | count + 1, left => fun tokens =>
    match tokens with
    | token :: rest =>
      if token = separator then do
        let (right, rest) ← item rest
        moreItems item separator join count (join left right) rest
      else .ok (left, tokens)
    | [] => .ok (left, [])

/-- Items with a separator between them, at least one, joined from the left. -/
def chain (item : Rule Node) (separator : Token) (join : Node → Node → Node) : Rule Node := do
  let first ← item
  let tokens ← get
  moreItems item separator join tokens.length first

/-- Parts that follow the rule `unary`, with `&&` between them. -/
def conjunction (unary : Rule Node) : Rule Node :=
  chain unary .andAnd fun left right => .and left [right]

/-- A condition whose innermost parts follow the rule `unary`. -/
def condition (unary : Rule Node) : Rule Node :=
  chain (conjunction unary) .orOr fun left right => .or left [right]

/-- `[?` a condition `]`. -/
def filter (unary : Rule Node) : Rule Node := do
  expect .openBracket
  expect .question
  let found ← condition unary
  expect .closeBracket
  pure found

/-- `[*]` and the filter that tests the elements. -/
def elementTest (unary : Rule Node) : Rule Node := do
  expect .openBracket
  expect .star
  expect .closeBracket
  filter unary

/-- A path behind a root: a field, or a collection if the path ends in `[*]`. -/
def access (elementUnary : Rule Node) (root : Node) : Rule Node := do
  let path ← names
  match path.getLast?, (← get).head? with
  | none, _ => refuse Token.dot.describe
  | some _, some .openBracket => do
    let predicate ← elementTest elementUnary
    pure (.collection (scope root path) predicate)
  | some name, _ => pure (.field (scope root path.dropLast) name)

/-- A literal, a placeholder or a reference. -/
def operand (elementUnary : Rule Node) (inTest : Bool) : Rule Node := fun tokens =>
  match tokens with
  | .dollar :: rest => access elementUnary .globalScope rest
  | .atSign :: rest => access elementUnary (itemRoot inTest) rest
  | token :: rest =>
    match literal? token with
    | some node => .ok (node, rest)
    | none => refuse "a value or field reference" tokens
  | [] => refuse "a value or field reference" tokens

/-- What follows the left operand of a comparison: an operator with `null` or with a second
operand, or nothing. -/
def comparisonTail (elementUnary : Rule Node) (inTest : Bool) (left : Node) : Rule Node :=
  fun tokens =>
    match tokens with
    | [] => .ok (left, [])
    | token :: rest =>
      match comparison? token with
      | none => .ok (left, tokens)
      | some op =>
        match nullTest? op, rest with
        | some test, .null :: rest => .ok (.after left test, rest)
        | _, _ => do
          let (right, rest) ← operand elementUnary inTest rest
          pure (.between left op right, rest)

/-- An operand, or a comparison of two. -/
def comparison (elementUnary : Rule Node) (inTest : Bool) : Rule Node := do
  let left ← operand elementUnary inTest
  comparisonTail elementUnary inTest left

/-- A negation, a condition in parentheses, or a comparison, in at most `count` tokens. Where no
token is left, an operand is missing. -/
def unary : Nat → Bool → Rule Node
  | 0, _ => refuse "a value or field reference"
  | count + 1, inTest => fun tokens =>
    match tokens with
    | .bang :: rest => do
      let (operand, rest) ← unary count inTest rest
      pure (.not operand, rest)
    | .openParen :: rest => do
      let (inner, rest) ← condition (unary count inTest) rest
      let (_, rest) ← expect .closeParen rest
      pure (inner, rest)
    | _ => comparison (unary count true) inTest tokens

/-- What follows the `$` of a template. -/
def templateBody : Rule Node := do
  let tokens ← get
  match tokens with
  | .dot :: _ => do
    let path ← names
    let predicate ← elementTest (unary tokens.length true)
    pure (.collection (scope .globalScope path) predicate)
  | _ => filter (unary tokens.length false)

/-- A whole template. -/
def template : Rule Node := do
  expect .dollar
  let tree ← templateBody
  expect .eof
  pure tree

end Grammar

/-- The tree of a token sequence that ends with `eof`. -/
def Node.ofTokens? (tokens : List Token) : Except Mismatch Node :=
  (Grammar.template tokens).map (·.1)

/-- The error of a mismatch: it lies at the lexeme that begins the remaining tokens. -/
def Mismatch.locate (m : Mismatch) (input : String) (lexemes : List Lexeme) : SyntaxError :=
  let met := (lexemes[lexemes.length - m.remaining.length]?).getD
    ⟨.eof, Text.byteLength input.toList⟩
  .locate (.expected m.wanted met.token) input met.position

/-- The tree of a template. -/
def Node.parse (input : String) : Except SyntaxError Node := do
  let lexemes ← tokenize input
  match ofTokens? (lexemes.map Lexeme.token) with
  | .ok tree => pure tree
  | .error m => throw (m.locate input lexemes)

end DataFilter
