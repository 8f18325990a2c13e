import DataFilter.Json.Numeral

/-!
# JSON text

The grammar of JSON, apart from what the text means: numerals and strings are kept as they are
written, and an object has its members in the order of the text, repeated names included.
-/

namespace DataFilter.Json

/-- A JSON text as it is written. -/
inductive Written where
  | null
  | bool (b : Bool)
  | numeral (n : Numeral)
  /-- The characters between the quotes, escapes unresolved. -/
  | string (content : List Char)
  | array (items : List Written)
  | object (members : List (List Char × Written))
  deriving Inhabited

namespace Grammar

/-- A reader takes characters off the front and gives what they are. -/
abbrev Reader (α : Type) := StateT (List Char) Option α

/-- The blanks of JSON. -/
def isBlank (c : Char) : Bool := c = ' ' || c = '\n' || c = '\t' || c = '\r'

/-- Takes off blanks. -/
def skipBlanks : Reader Unit := modify (·.dropWhile isBlank)

/-- Takes off one given character. -/
def expect (c : Char) : Reader Unit := fun text =>
  match text with
  | first :: rest => if first = c then some ((), rest) else none
  | [] => none

/-- The first character, which stays. -/
def peek : Reader (Option Char) := do return (← get).head?

/-- Takes off the digits at the front. -/
def digits : Reader (List Char) := fun text =>
  some (text.takeWhile Char.isDigit, text.dropWhile Char.isDigit)

/-- Takes off digits, at least one. -/
def someDigits : Reader (List Char) := do
  let found ← digits
  if found.isEmpty then failure else pure found

/-- The digits before the point: no zero stands before another digit. -/
def wholeDigits : Reader (List Char) := do
  let found ← someDigits
  if found.head? = some '0' ∧ 1 < found.length then failure else pure found

/-- The digits after the point, if there is one. -/
def fractionDigits : Reader (List Char) := do
  match ← peek with
  | some '.' => do
    expect '.'
    someDigits
  | _ => pure []

/-- The exponent, if there is one. -/
def exponentPart : Reader (Option (Bool × List Char)) := do
  let mark ← peek
  if mark = some 'e' ∨ mark = some 'E' then
    modify (·.drop 1)
    let sign ← peek
    if sign = some '-' ∨ sign = some '+' then modify (·.drop 1)
    let found ← someDigits
    pure (some (sign = some '-', found))
  else pure none

/-- A numeral. -/
def numeral : Reader Numeral := do
  let negative := (← peek) = some '-'
  if negative then expect '-'
  let whole ← wholeDigits
  let fraction ← fractionDigits
  let exponent ← exponentPart
  pure ⟨negative, whole, fraction, exponent⟩

/-- Whether a character is a hexadecimal digit. -/
def isHexDigit (c : Char) : Bool := c.isDigit || ('a' ≤ c && c ≤ 'f') || ('A' ≤ c && c ≤ 'F')

/-- The content of a string up to its closing quote, which is taken off too. Control characters
have to be escaped. -/
def stringContent : List Char → Option (List Char × List Char)
  | [] => none
  | '"' :: rest => some ([], rest)
  | '\\' :: 'u' :: a :: b :: c :: d :: rest =>
    if [a, b, c, d].all isHexDigit then
      (stringContent rest).map fun (content, rest) =>
        ('\\' :: 'u' :: a :: b :: c :: d :: content, rest)
    else none
  | '\\' :: c :: rest =>
    if ['"', '\\', '/', 'b', 'f', 'n', 'r', 't'].contains c then
      (stringContent rest).map fun (content, rest) => ('\\' :: c :: content, rest)
    else none
  | c :: rest =>
    if c.toNat < 0x20 || c = '\\' then none
    else (stringContent rest).map fun (content, rest) => (c :: content, rest)

/-- A string with its quotes. -/
def string : Reader (List Char) := do
  expect '"'
  stringContent

/-- A given word. -/
def word (letters : List Char) (meaning : Written) : Reader Written := fun text =>
  if letters.isPrefixOf text then some (meaning, text.drop letters.length) else none

/-- Items after the first one, each behind a comma, up to the closing sign; at most `count`. -/
def moreItems {α : Type} (item : Reader α) (close : Char) : Nat → Reader (List α)
  | 0 => failure
  | count + 1 => do
    skipBlanks
    match ← peek with
    | some ',' => do
      expect ','
      let first ← item
      let rest ← moreItems item close count
      pure (first :: rest)
    | _ => do
      expect close
      pure []

/-- Items with commas between them, up to the closing sign. -/
def itemsUpTo {α : Type} (item : Reader α) (close : Char) : Reader (List α) := do
  skipBlanks
  if (← peek) = some close then
    expect close
    pure []
  else
    let first ← item
    let rest ← moreItems item close (← get).length
    pure (first :: rest)

/-- A name, a colon and a value. -/
def member (value : Reader Written) : Reader (List Char × Written) := do
  skipBlanks
  let name ← string
  skipBlanks
  expect ':'
  let v ← value
  pure (name, v)

/-- A value with the blanks before it, nested at most `depth` deep. Each level has at least one
character of its own, so the length of the text is deep enough; where nothing is left there is no
value. -/
def value : Nat → Reader Written
  | 0 => failure
  | depth + 1 => do
    skipBlanks
    match ← peek with
    | some 'n' => word "null".toList .null
    | some 't' => word "true".toList (.bool true)
    | some 'f' => word "false".toList (.bool false)
    | some '"' => return .string (← string)
    | some '[' => do
      expect '['
      return .array (← itemsUpTo (value depth) ']')
    | some '\x7b' => do
      expect '\x7b'
      return .object (← itemsUpTo (member (value depth)) '\x7d')
    | _ => return .numeral (← numeral)

end Grammar

/-- The JSON text that a whole text is. -/
def Written.ofText? (text : String) : Option Written := do
  let characters := text.toList
  let (found, rest) ← Grammar.value characters.length characters
  if rest.all Grammar.isBlank then some found else none

end DataFilter.Json
