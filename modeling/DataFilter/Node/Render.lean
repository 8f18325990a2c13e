import DataFilter.Node

/-!
# Trees as template text

A tree is written in the spelling of templates, without the surrounding `$[?...]`. An operator
between or after its operands is put in parentheses where it is itself an operand. Literals that
templates know are written so that they read back; the others appear in their usual text.
-/

namespace DataFilter

/-- How one character is written in a string literal. -/
def literalChar : Char → String
  | '"' => "\\\""
  | '\\' => "\\\\"
  | '\n' => "\\n"
  | '\t' => "\\t"
  | '\r' => "\\r"
  | c => c.toString

/-- A string literal in double quotes. -/
def literalText (s : String) : String := "\"" ++ String.join (s.toList.map literalChar) ++ "\""

/-- The spelling of a literal. A whole binary number keeps a decimal, so that it stays one when it
is read; an instant becomes a string. -/
def Value.renderLiteral : Value → String
  | .float x => if x.isWhole then x.render ++ ".0" else x.render
  | .text s => literalText s
  | .instant t => literalText t.render
  | v => v.render

def Operand.render : Operand → String
  | literal v => v.renderLiteral
  | placeholder p => p.render

namespace Node

/-- Whether the tree needs parentheses as an operand. -/
def needsGrouping : Node → Bool
  | infixed .. | postfixed .. => true
  | _ => false

/-- Text in parentheses, if they are needed. -/
def grouped (needed : Bool) (text : String) : String := if needed then "(" ++ text ++ ")" else text

/-- What stands after an operand. The null tests are written as comparisons. -/
def afterSymbol : Operator → String
  | .isNull => " == null"
  | .isNotNull => " != null"
  | op => " " ++ op.symbol

/-- The spelling of a tree. -/
def render : Node → String
  | value operand => operand.render
  | globalScope => "$"
  | item => "@"
  | object parent name => parent.render ++ "." ++ name
  | field scope name => scope.render ++ "." ++ name
  | collection parent predicate => parent.render ++ "[*][?(" ++ predicate.render ++ ")]"
  | prefixed op operand _ => op.symbol ++ grouped operand.needsGrouping operand.render
  | infixed left op right _ =>
    grouped left.needsGrouping left.render ++ " " ++ op.symbol ++ " " ++
      grouped right.needsGrouping right.render
  | postfixed operand op _ => grouped operand.needsGrouping operand.render ++ afterSymbol op

end Node

end DataFilter
