import DataFilter.Template.Token
import DataFilter.Text.Basic

/-!
# Faults in a template

A template is refused at its first fault. The error names the cause, the byte offset and the text
that stands there.
-/

namespace DataFilter

/-- Why a template is refused. -/
inductive SyntaxFault where
  | unexpectedCharacter (c : Char)
  | integerOutOfRange (text : String)
  | invalidNumber (text : String)
  | invalidEscape (c : Char)
  | unterminatedString
  | invalidPlaceholder
  /-- The token found is not the one that the grammar asks for. -/
  | expected (what : String) (found : Token)
  /-- A fault that a program reports in its own words. -/
  | reported (message : String)
  deriving DecidableEq

/-- The wording of a fault. -/
def SyntaxFault.message : SyntaxFault → String
  | unexpectedCharacter c => "Unexpected character '" ++ c.toString ++ "'"
  | integerOutOfRange text => "Integer out of range '" ++ text ++ "'"
  | invalidNumber text => "Invalid number '" ++ text ++ "'"
  | invalidEscape c => "Invalid escape sequence '\\" ++ c.toString ++ "'"
  | unterminatedString => "Unterminated string"
  | invalidPlaceholder => "Invalid placeholder"
  | expected what found => "Expected " ++ what ++ ", found " ++ found.describe
  | reported message => message

/-- A fault in a template, with its place. -/
structure SyntaxError where
  fault : SyntaxFault
  /-- The byte offset in the template. -/
  position : Nat
  /-- What stands there, at most 20 characters. -/
  context : String
  deriving DecidableEq

namespace SyntaxError

/-- The error of a fault at a byte offset of the input. -/
def locate (fault : SyntaxFault) (input : String) (position : Nat) : SyntaxError :=
  ⟨fault, position, Text.context input position⟩

/-- The whole message. -/
def message (e : SyntaxError) : String :=
  "Syntax error at position " ++ toString e.position ++ ": " ++ e.fault.message ++
    " (near '" ++ e.context ++ "')"

end SyntaxError

end DataFilter
