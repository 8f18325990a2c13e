import DataFilter.Number.Integer
import DataFilter.Operator
import DataFilter.Template.Shape

/-!
# A reader of SQL conditions

The reader stands for whoever receives the SQL: it knows the words and signs of the language and how
tightly every operator binds, and nothing of how the text came about. A text is split into symbols,
and the symbols are read by operator precedence: the operators of an operand all bind at least as
tightly as the place of the operand asks, operators of one strength group from the left, and a
comparison is no operand of a comparison. What the reader finds is a `Phrase`.
-/

namespace DataFilter

namespace Sql

/-! ## Symbols -/

/-- The words that are no names. -/
inductive Keyword where
  | and | or | not | is | null | exists | select | from | as | where
  deriving DecidableEq

namespace Keyword

def all : List Keyword := [and, or, not, is, null, .exists, select, .from, as, .where]

def spelling : Keyword → String
  | and => "AND"
  | or => "OR"
  | not => "NOT"
  | is => "IS"
  | null => "NULL"
  | .exists => "EXISTS"
  | select => "SELECT"
  | .from => "FROM"
  | as => "AS"
  | .where => "WHERE"

end Keyword

/-- The keyword that a word is, in whatever case its letters are. -/
def keyword? (word : List Char) : Option Keyword :=
  Keyword.all.find? fun k => k.spelling.toList = word.map Char.toUpper

/-- The operators that are written as signs. In front of an operand a plus or a minus is a sign. -/
def signs : List (String × Operator) :=
  [("=", .equal), ("<>", .notEqual), ("<", .lessThan), ("<=", .lessThanEqual), (">", .greaterThan),
    (">=", .greaterThanEqual), ("<<", .leftShift), (">>", .rightShift), ("+", .add),
    ("-", .subtract), ("*", .multiply), ("/", .divide), ("%", .modulo)]

def sign? (text : List Char) : Option Operator :=
  (signs.find? fun entry => entry.1.toList = text).map Prod.snd

inductive Symbol where
  | name (name : String)
  | keyword (word : Keyword)
  /-- A numbered parameter, `$1`. -/
  | parameter (number : Nat)
  | number (value : Nat)
  | sign (op : Operator)
  | openParen
  | closeParen
  | dot
  deriving DecidableEq

/-- The characters of words, numbers and parameters. -/
def isWordChar (c : Char) : Bool := isNameChar c || c = '$'

/-- The signs of two characters, and what begins a comment. -/
def pairs : List (Char × Char) :=
  [('<', '='), ('<', '>'), ('<', '<'), ('>', '='), ('>', '>'), ('-', '-'), ('/', '*')]

/-- Whether two characters in a row are part of one symbol. -/
def belong (a b : Char) : Bool := isWordChar a && isWordChar b || (a, b) ∈ pairs

/-- Whether a text is a number. -/
def isNumber (text : List Char) : Bool := !text.isEmpty && text.all Char.isDigit

/-- The symbol that a text is. -/
def symbol? : List Char → Option Symbol
  | ['('] => some .openParen
  | [')'] => some .closeParen
  | ['.'] => some .dot
  | '$' :: digits => if isNumber digits then some (.parameter (digitsValue digits)) else none
  | text =>
    if isName text then some (((keyword? text).map .keyword).getD (.name (String.ofList text)))
    else if isNumber text then some (.number (digitsValue text))
    else (sign? text).map .sign

/-- The symbols of a text, without the blanks between them. -/
def symbols? (text : List Char) : Option (List Symbol) :=
  ((text.splitBy belong).filter (· ≠ [' '])).mapM symbol?

/-! ## Phrases -/

/-- What the rows of a subquery are taken from. -/
inductive Range where
  /-- The elements of an array. -/
  | elements (array : List String)
  | table (name : String)
  deriving DecidableEq

/-- A condition as it is read. -/
inductive Phrase where
  | parameter (number : Nat)
  | column (names : List String)
  | prefixed (op : Operator) (operand : Phrase)
  | infixed (left : Phrase) (op : Operator) (right : Phrase)
  | postfixed (operand : Phrase) (op : Operator)
  /-- Some row of the range, under the name `rowName`, satisfies the condition. -/
  | exists (range : Range) (rowName : String) (condition : Phrase)
  deriving DecidableEq

/-- The parts of a condition that all have to hold, from left to right. -/
def Phrase.conjuncts : Phrase → List Phrase
  | infixed left .and right => left.conjuncts ++ right.conjuncts
  | p => [p]

/-! ## Reading by precedence -/

/-- Where an operator stands. -/
inductive Position where
  | before
  | between
  | after
  deriving DecidableEq

end Sql

namespace Operator

/-- Where the operator stands: in front of its operand, between two, or after it. -/
def position : Operator → Sql.Position
  | not | positive | negative => .before
  | isNull | isNotNull => .after
  | _ => .between

/-- How tightly an operator on the right of this one may bind to have it as its left operand. -/
def reach (op : Operator) : Nat := if op.isComparison then op.precedence - 1 else op.precedence

end Operator

namespace Sql

/-- More than any operator binds. -/
def tightest : Nat := 10

/-- The operator that a symbol is in front of an operand. -/
def Symbol.leading? : Symbol → Option Operator
  | .keyword .not => some .not
  | .sign .add => some .positive
  | .sign .subtract => some .negative
  | _ => none

/-- The operator that follows an operand, and what is left after it. -/
def trailing? : List Symbol → Option (Operator × List Symbol)
  | .sign op :: rest => some (op, rest)
  | .keyword .and :: rest => some (.and, rest)
  | .keyword .or :: rest => some (.or, rest)
  | .keyword .is :: .keyword .null :: rest => some (.isNull, rest)
  | .keyword .is :: .keyword .not :: .keyword .null :: rest => some (.isNotNull, rest)
  | _ => none

/-- Takes a symbol off. -/
def expect (wanted : Symbol) : List Symbol → Option (List Symbol)
  | found :: rest => if found = wanted then some rest else none
  | [] => none

/-- The names behind dots. -/
def dottedNames : List Symbol → List String × List Symbol
  | .dot :: .name n :: rest => ((n :: (dottedNames rest).1), (dottedNames rest).2)
  | rest => ([], rest)

/-- A dotted name. -/
def column? : List Symbol → Option (List String × List Symbol)
  | .name n :: rest => some (n :: (dottedNames rest).1, (dottedNames rest).2)
  | _ => none

/-- What stands between `FROM` and `AS`. -/
def range? : List Symbol → Option (Range × List Symbol)
  | .name "unnest" :: .openParen :: rest => do
    let (array, rest) ← column? rest
    let rest ← expect .closeParen rest
    return (.elements array, rest)
  | .name table :: rest => some (.table table, rest)
  | _ => none

/-- The subquery after `EXISTS`, up to and with its `WHERE`: its range and the name of its rows. -/
def subquery? (symbols : List Symbol) : Option (Range × String × List Symbol) := do
  let rest ← expect .openParen symbols
  let rest ← expect (.keyword .select) rest
  let rest ← expect (.number 1) rest
  let rest ← expect (.keyword .from) rest
  let (range, rest) ← range? rest
  let rest ← expect (.keyword .as) rest
  match rest with
  | .name rowName :: rest => return (range, rowName, ← expect (.keyword .where) rest)
  | _ => none

mutual

/-- Reads a condition whose operators bind with at least the strength `least`. Every symbol takes
one off the fuel. -/
def expression : Nat → Nat → List Symbol → Option (Phrase × List Symbol)
  | 0, _, _ => none
  | _, _, [] => none
  | fuel + 1, least, symbol :: rest =>
    match symbol.leading? with
    | some op =>
      if least ≤ op.precedence then do
        let (operand, rest) ← expression fuel op.precedence rest
        operators fuel least op.precedence (.prefixed op operand) rest
      else none
    | none => do
      let (operand, rest) ← primary fuel symbol rest
      operators fuel least tightest operand rest

/-- Reads an operand that begins with a symbol and has no operators outside of parentheses. -/
def primary : Nat → Symbol → List Symbol → Option (Phrase × List Symbol)
  | 0, _, _ => none
  | _, .parameter number, rest => some (.parameter number, rest)
  | fuel + 1, .openParen, rest => do
    let (condition, rest) ← expression fuel 0 rest
    return (condition, ← expect .closeParen rest)
  | fuel + 1, .keyword .exists, rest => do
    let (range, rowName, rest) ← subquery? rest
    let (condition, rest) ← expression fuel 0 rest
    return (.exists range rowName condition, ← expect .closeParen rest)
  | _, symbol, rest => (column? (symbol :: rest)).map fun (names, rest) => (.column names, rest)

/-- Reads on after an operand, as long as operators follow that bind with at least the strength
`least` and at most the strength `most`. -/
def operators : Nat → Nat → Nat → Phrase → List Symbol → Option (Phrase × List Symbol)
  | 0, _, _, _, _ => none
  | fuel + 1, least, most, left, symbols =>
    match trailing? symbols with
    | some (op, rest) =>
      if least ≤ op.precedence ∧ op.precedence ≤ most then
        if op.position = .after then operators fuel least op.reach (.postfixed left op) rest
        else do
          let (right, rest) ← expression fuel (op.precedence + 1) rest
          operators fuel least op.reach (.infixed left op right) rest
      else some (left, symbols)
    | none => some (left, symbols)

end

/-- The whole text as one condition. -/
def read (text : String) : Option Phrase := do
  let symbols ← symbols? text.toList
  match ← expression (symbols.length + 1) 0 symbols with
  | (condition, []) => return condition
  | _ => none

-- a comparison is no operand of a comparison, and two signs in a row begin a comment
example : read "a = b = c" = none := by decide +kernel
example : read "--a" = none := by decide +kernel

end Sql

end DataFilter
