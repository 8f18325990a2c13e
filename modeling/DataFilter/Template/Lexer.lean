import DataFilter.Template.Fault
import DataFilter.Template.Shape
import DataFilter.Text.Basic

/-!
# From text to tokens

The lexer finds the next lexeme by its shape, takes it off the text and reads it. Blanks between
lexemes are skipped. Reading may still fail: whole numbers are bounded and strings know few escapes.
A character that starts no lexeme stays where it is, a lexeme that cannot be read is taken off.
-/

namespace DataFilter

/-! ## Reading a lexeme -/

/-- Whether a number has a minus sign, and what follows it. -/
def splitSign : List Char → Bool × List Char
  | '-' :: rest => (true, rest)
  | all => (false, all)

/-- Reads a number: with a point a binary number, without one a whole number. -/
def readNumber (text : List Char) : Except SyntaxFault Token :=
  let (negative, digits) := splitSign text
  match digits.dropWhile Char.isDigit with
  | [] =>
    let magnitude : Int := digitsValue digits
    match Integer.ofInt? (if negative then -magnitude else magnitude) with
    | some n => .ok (.integer n)
    | none => .error (.integerOutOfRange (String.ofList text))
  | '.' :: fraction =>
    let whole := digits.takeWhile Char.isDigit
    if whole.isEmpty || fraction.isEmpty || !fraction.all Char.isDigit then
      .error (.invalidNumber (String.ofList text))
    else
      .ok (.float (.ofDecimal negative (digitsValue (whole ++ fraction)) (-fraction.length)))
  | _ => .error (.invalidNumber (String.ofList text))

/-- Resolves the escapes of a string's content. -/
def resolveEscapes : List Char → Except SyntaxFault (List Char)
  | [] => .ok []
  | '\\' :: [] => .error .unterminatedString
  | '\\' :: c :: rest =>
    match c with
    | 'n' => (resolveEscapes rest).map ('\n' :: ·)
    | 't' => (resolveEscapes rest).map ('\t' :: ·)
    | 'r' => (resolveEscapes rest).map ('\r' :: ·)
    | '"' => (resolveEscapes rest).map ('"' :: ·)
    | '\'' => (resolveEscapes rest).map ('\'' :: ·)
    | '\\' => (resolveEscapes rest).map ('\\' :: ·)
    | _ => .error (.invalidEscape c)
  | c :: rest => (resolveEscapes rest).map (c :: ·)

/-- Reads a string literal with its quotes. -/
def readQuoted (text : List Char) : Except SyntaxFault Token :=
  (resolveEscapes (text.drop 1).dropLast).map fun content => .text (String.ofList content)

/-- Reads a placeholder. One without a name stands for the parameter at `index`. -/
def readPlaceholder (text : List Char) (index : Nat) : Except SyntaxFault Token :=
  match text.getLast?.bind PlaceholderKind.ofLetter? with
  | none => .error .invalidPlaceholder
  | some kind =>
    match text.drop 1 with
    | '(' :: rest => .ok (.placeholder ⟨.name (String.ofList (rest.takeWhile (· ≠ ')'))), kind⟩)
    | _ => .ok (.placeholder ⟨.position index, kind⟩)

/-- Reads a word: one of three literals, or a name. -/
def readWord (text : List Char) : Token :=
  match String.ofList text with
  | "true" => .boolean true
  | "false" => .boolean false
  | "null" => .null
  | name => .identifier name

/-- Reads a lexeme of a known shape, the placeholder at `index` if it is one without a name. -/
def Shape.read (shape : Shape) (text : List Char) (index : Nat) : Except SyntaxFault Token :=
  match shape with
  | mark token => .ok token
  | number => readNumber text
  | quoted => readQuoted text
  | placeholder => readPlaceholder text index
  | word => .ok (readWord text)

/-- How many placeholders without a name a token is. -/
def Token.positionalCount : Token → Nat
  | placeholder ⟨.position _, _⟩ => 1
  | _ => 0

/-! ## The state of reading -/

/-- A template that is read lexeme by lexeme. -/
structure Lexer where
  /-- The whole template. -/
  input : String
  /-- The part not yet read. -/
  rest : List Char
  /-- The byte offset of that part. -/
  position : Nat
  /-- How many placeholders without a name have been read. -/
  placeholders : Nat

namespace Lexer

/-- At the beginning of a template. -/
def ofInput (input : String) : Lexer := ⟨input, input.toList, 0, 0⟩

/-- Behind the blanks at the current position. -/
def skipBlanks (l : Lexer) : Lexer :=
  { l with
    rest := l.rest.dropWhile Text.isBlank
    position := l.position + Text.byteLength (l.rest.takeWhile Text.isBlank) }

/-- Behind `count` characters. -/
def skip (l : Lexer) (count : Nat) : Lexer :=
  { l with
    rest := l.rest.drop count
    position := l.position + Text.byteLength (l.rest.take count) }

/-- Reads the lexeme at the current position, where no blank stands. -/
def take (l : Lexer) : Except SyntaxError Lexeme × Lexer :=
  match l.rest with
  | [] => (.ok ⟨.eof, l.position⟩, l)
  | c :: rest =>
    match Shape.start? c rest with
    | none => (.error (.locate (.unexpectedCharacter c) l.input l.position), l)
    | some (shape, more) =>
      let after := l.skip (more + 1)
      match shape.read (c :: rest.take more) l.placeholders with
      | .error fault => (.error (.locate fault l.input l.position), after)
      | .ok token =>
        (.ok ⟨token, l.position⟩,
          { after with placeholders := after.placeholders + token.positionalCount })

/-- Reads the next lexeme. At the end of the template that is the token `eof`, again and again. -/
def next (l : Lexer) : Except SyntaxError Lexeme × Lexer := l.skipBlanks.take

/-- Skipping blanks adds nothing to the unread part. -/
theorem length_skipBlanks_le (l : Lexer) : l.skipBlanks.rest.length ≤ l.rest.length :=
  (List.dropWhile_suffix _).length_le

/-- A lexeme other than the end takes something off the unread part. -/
theorem length_take_lt {l after : Lexer} {lexeme : Lexeme} (h : l.take = (.ok lexeme, after))
    (hne : lexeme.token ≠ .eof) : after.rest.length < l.rest.length := by
  unfold take at h
  split at h
  · cases h; exact absurd rfl hne
  · rename_i c rest hrest
    split at h
    · cases h
    · dsimp only at h
      split at h
      · cases h
      · cases h
        simp only [skip, hrest, List.length_drop, List.length_cons]
        omega

/-- The next lexemes up to the end, which is expected behind at most `count` of them. -/
def upToEnd : Nat → Lexer → Except SyntaxError (List Lexeme)
  | 0, l => l.next.1.map ([·])
  | count + 1, l =>
    match l.next with
    | (.error e, _) => .error e
    | (.ok lexeme, after) =>
      if lexeme.token = .eof then .ok [lexeme] else (upToEnd count after).map (lexeme :: ·)

end Lexer

/-- The lexemes of a template, the last one its end. There are no more lexemes before the end than
characters. -/
def tokenize (input : String) : Except SyntaxError (List Lexeme) :=
  let start := Lexer.ofInput input
  start.upToEnd start.rest.length

end DataFilter
