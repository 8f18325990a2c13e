import DataFilter.Template.Token

/-!
# Shapes of lexemes

Which characters belong to the lexeme at the beginning of a text is decided by its first character
and the text that follows, as listed in `Shape.start?`: blanks first, then marks of two characters
before marks of one, numbers, strings, placeholders and words. A shape comes with the count of
characters beyond the first one, so that a lexeme is never empty.
-/

namespace DataFilter

/-- A letter of ASCII or an underscore: what a name starts with. -/
def isNameStart (c : Char) : Bool := c.isAlpha || c = '_'

/-- A letter or digit of ASCII or an underscore: what a name consists of. -/
def isNameChar (c : Char) : Bool := c.isAlphanum || c = '_'

/-- Whether a text is a name. -/
def isName : List Char → Bool
  | [] => false
  | c :: rest => isNameStart c && rest.all isNameChar

/-- What kind of lexeme a stretch of text is. -/
inductive Shape where
  | mark (token : Token)
  | number
  | quoted
  | placeholder
  | word
  deriving DecidableEq

namespace Shape

/-- How many characters at the front of a text satisfy a test. -/
def run (test : Char → Bool) (text : List Char) : Nat := (text.takeWhile test).length

/-- The length of a number's digits after the first character: digits, and a point with digits if
digits follow it. -/
def numberLength (text : List Char) : Nat :=
  let whole := run Char.isDigit text
  match text.drop whole with
  | '.' :: rest => if run Char.isDigit rest = 0 then whole else whole + 1 + run Char.isDigit rest
  | _ => whole

/-- The length of a string after its opening quote, up to and with the closing one. A backslash
takes the next character with it, which may not be a line feed. -/
def quotedLength? (quote : Char) : List Char → Option Nat
  | [] => none
  | '\\' :: [] => none
  | '\\' :: c :: rest => if c = '\n' then none else (quotedLength? quote rest).map (· + 2)
  | c :: rest => if c = quote then some 1 else (quotedLength? quote rest).map (· + 1)

/-- Whether a letter asks for a kind of placeholder. -/
def isKindLetter (c : Char) : Bool := c = 's' || c = 'd' || c = 'f'

/-- The length of a placeholder after the percent sign: a letter, or a name in parentheses and a
letter. -/
def placeholderLength? : List Char → Option Nat
  | '(' :: rest =>
    let name := run isNameChar rest
    match isName (rest.take name), rest.drop name with
    | true, ')' :: c :: _ => if isKindLetter c then some (name + 3) else none
    | _, _ => none
  | c :: _ => if isKindLetter c then some 1 else none
  | [] => none

/-- The mark of two characters. -/
def pairMark? : Char → Char → Option Token
  | '&', '&' => some .andAnd
  | '|', '|' => some .orOr
  | '=', '=' => some .equalEqual
  | '!', '=' => some .notEqual
  | '>', '=' => some .greaterEqual
  | '<', '=' => some .lessEqual
  | _, _ => none

/-- The mark of one character. -/
def singleMark? : Char → Option Token
  | '[' => some .openBracket
  | ']' => some .closeBracket
  | '(' => some .openParen
  | ')' => some .closeParen
  | '.' => some .dot
  | '$' => some .dollar
  | '@' => some .atSign
  | '?' => some .question
  | '*' => some .star
  | '>' => some .greater
  | '<' => some .less
  | '!' => some .bang
  | _ => none

/-- The mark at the front of a text, and whether it has a second character. -/
def mark? (first : Char) (rest : List Char) : Option (Shape × Nat) :=
  match rest.head?.bind (pairMark? first) with
  | some token => some (mark token, 1)
  | none => (singleMark? first).map fun token => (mark token, 0)

/-- The lexeme that starts with `first` and goes on in `rest`: its shape and how many characters of
`rest` belong to it. -/
def start? (first : Char) (rest : List Char) : Option (Shape × Nat) :=
  match mark? first rest with
  | some found => some found
  | none =>
    if first.isDigit then some (number, numberLength rest)
    else if first = '-' then
      if rest.head?.any Char.isDigit then some (number, numberLength rest) else none
    else if first = '"' || first = '\'' then (quotedLength? first rest).map (quoted, ·)
    else if first = '%' then (placeholderLength? rest).map (placeholder, ·)
    else if isNameStart first then some (word, run isNameChar rest)
    else none

end Shape

end DataFilter
