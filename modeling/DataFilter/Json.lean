import DataFilter.Entries
import DataFilter.Number.Binary64.PlainText

/-!
# JSON documents

A document is what a JSON text means: numbers are whole where they are written so and fit 64 bits,
signed or unsigned, and binary otherwise; an object has each name once, in the order of names.
-/

namespace DataFilter

/-- A number of a document. -/
inductive JsonNumber where
  /-- A whole number from `-2^63` to `2^64 - 1`. -/
  | whole (n : Int)
  /-- A finite binary number. -/
  | binary (x : Binary64)
  deriving DecidableEq

/-- A JSON document. -/
inductive Json where
  | null
  | bool (b : Bool)
  | number (n : JsonNumber)
  | string (s : String)
  | array (items : List Json)
  | object (members : List (String × Json))
  deriving Inhabited

namespace Json

/-- The object with these members; of several with one name the last is kept. -/
def ofMembers (members : List (String × Json)) : Json := object (Entries.ofList members)

end Json

end DataFilter
