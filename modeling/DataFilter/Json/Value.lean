import DataFilter.Evaluation.Context
import DataFilter.Json

/-!
# Documents as values

Every document is a value. Of the numbers only the whole ones above `2^63 - 1` change: they become
binary. Every value has a document, though not of its own: instants, durations and value objects
become strings, decimals become binary numbers, and what is no finite number becomes null.
-/

namespace DataFilter

/-- The value of a number. -/
def JsonNumber.toValue : JsonNumber → Value
  | whole n =>
    match Integer.ofInt? n with
    | some m => .integer m
    | none => .float (.ofInt n)
  | binary x => .float x

/-- A binary number as a document. -/
def Binary64.toJson (x : Binary64) : Json :=
  if x.isFinite then .number (.binary x) else .null

mutual

/-- The value of a document. -/
def Json.toValue : Json → Value
  | .null => .null
  | .bool b => .boolean b
  | .number n => n.toValue
  | .string s => .text s
  | .array items => .array (valuesOfItems items)
  | .object members => .object (valuesOfMembers members)

/-- The values of the items of an array. -/
def valuesOfItems : List Json → List Value
  | [] => []
  | item :: rest => item.toValue :: valuesOfItems rest

/-- The values of the members of an object. -/
def valuesOfMembers : List (String × Json) → List (String × Value)
  | [] => []
  | (name, v) :: rest => (name, v.toValue) :: valuesOfMembers rest

end

mutual

/-- The document of a value. -/
def Value.toJson : Value → Json
  | .null => .null
  | .boolean b => .bool b
  | .integer n => .number (.whole n.toInt)
  | .float x => x.toJson
  | .decimal d => d.toBinary64.toJson
  | .text s => .string s
  | .instant t => .string t.render
  | .duration d => .string d.render
  | .array items => .array (documentsOfItems items)
  | .object entries => .object (documentsOfEntries entries)
  | .custom o => .string o.render

/-- The documents of the items of a list. -/
def documentsOfItems : List Value → List Json
  | [] => []
  | v :: rest => v.toJson :: documentsOfItems rest

/-- The documents of the entries of an object. -/
def documentsOfEntries : List (String × Value) → List (String × Json)
  | [] => []
  | (name, v) :: rest => (name, v.toJson) :: documentsOfEntries rest

end

/-- What a document answers to a name. -/
def Json.get? (document : Json) (name : String) : Option Value :=
  match document with
  | object members => (Entries.get? members name).map toValue
  | array _ => if name = elementsName then some document.toValue else none
  | _ => none

/-- A document as a context. -/
def Context.ofJson (document : Json) : Context := ⟨fun name => .ok (document.get? name)⟩

end DataFilter
