import DataFilter.Node

/-!
# Tokens of the template language

A template is a sequence of tokens. A lexeme is a token with the byte offset where it starts.
-/

namespace DataFilter

/-- A token of a template. -/
inductive Token where
  | integer (n : Integer)
  | float (x : Binary64)
  /-- A string literal, its escapes resolved. -/
  | text (s : String)
  | boolean (b : Bool)
  | null
  | placeholder (p : Placeholder)
  | identifier (name : String)
  /-- `$`, the document. -/
  | dollar
  /-- `@`, the element under test or else the document. -/
  | atSign
  | question | star
  | andAnd | orOr | bang
  | equalEqual | notEqual | less | greater | lessEqual | greaterEqual
  | openBracket | closeBracket | openParen | closeParen | dot
  /-- The end of the template. -/
  | eof
  deriving DecidableEq

/-- A token at its byte offset. -/
structure Lexeme where
  token : Token
  position : Nat
  deriving DecidableEq

namespace Token

/-- The spelling of a token that has only one. -/
def symbol? : Token → Option String
  | null => some "null"
  | dollar => some "$"
  | atSign => some "@"
  | question => some "?"
  | star => some "*"
  | andAnd => some "&&"
  | orOr => some "||"
  | bang => some "!"
  | equalEqual => some "=="
  | notEqual => some "!="
  | less => some "<"
  | greater => some ">"
  | lessEqual => some "<="
  | greaterEqual => some ">="
  | openBracket => some "["
  | closeBracket => some "]"
  | openParen => some "("
  | closeParen => some ")"
  | dot => some "."
  | _ => none

/-- How messages call a token. -/
def describe : Token → String
  | integer n => "number " ++ n.render
  | float x => "number " ++ x.render
  | text s => "string " ++ Text.quoted s
  | boolean b => if b then "'true'" else "'false'"
  | placeholder p => "placeholder " ++ p.render
  | identifier name => "identifier '" ++ name ++ "'"
  | eof => "end of input"
  | token => "'" ++ token.symbol?.getD "" ++ "'"

end Token

end DataFilter
