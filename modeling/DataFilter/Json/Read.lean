import DataFilter.Json.Written

/-!
# Reading documents

The meaning of a JSON text: escapes resolved, numbers computed, and repeated names settled in
favour of the last. A text without meaning is refused: half of a surrogate pair, a number that is
too large, or more than 127 levels of nesting.
-/

namespace DataFilter.Json

/-! ## Strings -/

/-- A piece of a string: a character, or a 16-bit unit written by its number. -/
inductive StringPiece where
  | char (c : Char)
  | unit (n : Nat)
  deriving DecidableEq

/-- The value of a hexadecimal digit. -/
def hexDigitValue (c : Char) : Nat :=
  if c.isDigit then c.toNat - '0'.toNat
  else if c.toNat < 'a'.toNat then c.toNat - 'A'.toNat + 10
  else c.toNat - 'a'.toNat + 10

/-- The character behind a backslash. -/
def escapedChar : Char → Char
  | 'b' => '\x08'
  | 'f' => '\x0c'
  | 'n' => '\n'
  | 'r' => '\r'
  | 't' => '\t'
  | c => c

/-- The pieces of a string's content. -/
def stringPieces : List Char → List StringPiece
  | '\\' :: 'u' :: a :: b :: c :: d :: rest =>
    .unit ([a, b, c, d].foldl (fun n digit => 16 * n + hexDigitValue digit) 0) :: stringPieces rest
  | '\\' :: c :: rest => .char (escapedChar c) :: stringPieces rest
  | c :: rest => .char c :: stringPieces rest
  | [] => []

/-- The characters of a string. Two units of a surrogate pair are one character; a unit of a pair
does not stand alone. -/
def joinPieces? : List StringPiece → Option (List Char)
  | [] => some []
  | .char c :: rest => (joinPieces? rest).map (c :: ·)
  | .unit high :: .unit low :: rest =>
    if 0xD800 ≤ high ∧ high < 0xDC00 then
      if 0xDC00 ≤ low ∧ low < 0xE000 then
        let code := 0x10000 + (high - 0xD800) * 0x400 + (low - 0xDC00)
        (joinPieces? rest).map (Char.ofNat code :: ·)
      else none
    else if 0xDC00 ≤ high ∧ high < 0xE000 then none
    else (joinPieces? (.unit low :: rest)).map (Char.ofNat high :: ·)
  | .unit n :: rest =>
    if 0xD800 ≤ n ∧ n < 0xE000 then none else (joinPieces? rest).map (Char.ofNat n :: ·)

/-- The string of a content, if it is text. -/
def stringOfContent? (content : List Char) : Option String :=
  (joinPieces? (stringPieces content)).map String.ofList

/-! ## Documents -/

mutual

/-- The document of a JSON text. Entering an array or an object takes one of the levels that are
left, and the last level cannot be entered. -/
def Written.read? (levels : Nat) : Written → Option Json
  | .null => some .null
  | .bool b => some (.bool b)
  | .numeral n => n.number?.map .number
  | .string content => (stringOfContent? content).map .string
  | .array items => if levels ≤ 1 then none else (readItems? (levels - 1) items).map .array
  | .object members =>
    if levels ≤ 1 then none else (readMembers? (levels - 1) members).map Json.ofMembers

/-- The documents of the items of an array. -/
def readItems? (levels : Nat) : List Written → Option (List Json)
  | [] => some []
  | item :: rest => do return (← item.read? levels) :: (← readItems? levels rest)

/-- The documents of the members of an object, with their names. -/
def readMembers? (levels : Nat) : List (List Char × Written) → Option (List (String × Json))
  | [] => some []
  | (name, v) :: rest => do
    return (← stringOfContent? name, ← v.read? levels) :: (← readMembers? levels rest)

end

/-- How many levels a whole text has. -/
def levelLimit : Nat := 128

/-- The document that a text is. -/
def ofText? (text : String) : Option Json := do (← Written.ofText? text).read? levelLimit

end DataFilter.Json
