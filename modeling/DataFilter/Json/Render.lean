import DataFilter.Json

/-!
# Writing documents

Documents are written on one line without blanks, or over several lines with an indentation of two.
A binary number is written with its shortest digits: positionally from `0.00001` to below `10^16`,
always with a point, and with a signed exponent outside.
-/

namespace DataFilter.Json

/-- The text of a positive magnitude. Of two nearest digit strings the even one is taken. -/
def magnitudeText (units : Nat) : String :=
  let (coefficient, grid) := Binary64.shortest units .toEven
  let digits := toString coefficient
  let power : Int := (grid : Int) - 1074
  let point : Int := digits.length + power
  if 0 ≤ power ∧ point ≤ 16 then digits ++ "".pushn '0' power.toNat ++ ".0"
  else if -5 < point ∧ point ≤ 16 then plainText coefficient power.natAbs
  else
    let first := String.ofList (digits.toList.take 1)
    let others := digits.toList.drop 1
    first ++ (if others.isEmpty then "" else "." ++ String.ofList others) ++
      (if 0 < point then "e+" else "e-") ++ toString (point - 1).natAbs

/-- The text of a binary number. Infinities and `nan` have none. -/
def binaryText : Binary64 → String
  | .finite negative units _ =>
    (if negative then "-" else "") ++ (if units = 0 then "0.0" else magnitudeText units)
  | _ => "null"

def JsonNumber.render : JsonNumber → String
  | .whole n => toString n
  | .binary x => binaryText x

/-- How one character is written in a string. -/
def stringChar (c : Char) : String :=
  if c = '"' then "\\\""
  else if c = '\\' then "\\\\"
  else if c = '\x08' then "\\b"
  else if c = '\x0c' then "\\f"
  else if c = '\n' then "\\n"
  else if c = '\r' then "\\r"
  else if c = '\t' then "\\t"
  else if c.toNat < 0x20 then
    "\\u00" ++ String.ofList [Nat.digitChar (c.toNat / 16), Nat.digitChar (c.toNat % 16)]
  else c.toString

/-- A string with its quotes. -/
def stringText (s : String) : String := "\"" ++ String.join (s.toList.map stringChar) ++ "\""

/-- How the parts of arrays and objects are laid out. -/
structure Layout where
  /-- What stands between a name and its value. -/
  colon : String
  /-- What begins a line at a depth of nesting. -/
  newLine : Nat → String

namespace Layout

/-- Everything on one line. -/
def compact : Layout := ⟨":", fun _ => ""⟩

/-- One item a line. -/
def pretty : Layout := ⟨": ", fun depth => "\n" ++ "".pushn ' ' (2 * depth)⟩

/-- Items between two signs. Without items the signs stand together. -/
def enclose (layout : Layout) (depth : Nat) (opening : String) (items : List String)
    (closing : String) : String :=
  if items.isEmpty then opening ++ closing
  else opening ++ layout.newLine (depth + 1) ++
    ("," ++ layout.newLine (depth + 1)).intercalate items ++ layout.newLine depth ++ closing

end Layout

mutual

/-- The text of a document at a depth of nesting. -/
def renderAt (layout : Layout) (depth : Nat) : Json → String
  | null => "null"
  | bool b => if b then "true" else "false"
  | number n => JsonNumber.render n
  | string s => stringText s
  | array items => layout.enclose depth "[" (renderItems layout (depth + 1) items) "]"
  | object members =>
    layout.enclose depth "\x7b" (renderMembers layout (depth + 1) members) "\x7d"

/-- The texts of the items of an array. -/
def renderItems (layout : Layout) (depth : Nat) : List Json → List String
  | [] => []
  | item :: rest => renderAt layout depth item :: renderItems layout depth rest

/-- The texts of the members of an object. -/
def renderMembers (layout : Layout) (depth : Nat) : List (String × Json) → List String
  | [] => []
  | (name, v) :: rest =>
    (stringText name ++ layout.colon ++ renderAt layout depth v) :: renderMembers layout depth rest

end

/-- The text of a document. -/
def render (layout : Layout) (document : Json) : String := renderAt layout 0 document

end DataFilter.Json
