import DataFilter.Entries
import DataFilter.Number.Binary64.PlainText
import DataFilter.Number.Binary64.Whole
import DataFilter.Number.Decimal.Binary
import DataFilter.Text.Quoted
import DataFilter.Time.Instant

/-!
# Values

A filter works on dynamically typed values: what a document holds, what a parameter supplies and
what an operator computes. The types are closed, except that programs may bring value objects of
their own, which take part in comparisons as far as their kind allows. How objects of a kind are
compared and written is up to the program: a kind brings its own equality, its own order and its own
text.
-/

namespace DataFilter

/-! ## Value objects -/

/-- What a value object shows of itself: the name of its kind, the number that it stands for and its
identity. No two objects have one identity, so whatever a program lets one object say of another one
is a function of what the two show. -/
structure ObjectView where
  name : String
  amount : Integer
  identity : Nat

/-- The text of objects. -/
structure Label where
  text : ObjectView → String

/-- The equality of objects. It is what the first one says of the second, `none` where it cannot
compare itself with it. The second one need not say the same of the first. -/
structure Equatable where
  equal? : ObjectView → ObjectView → Option Bool

/-- The order of objects, again as the first sees it. Comparisons are read off the order, unless a
kind answers one of them in its own way. -/
structure Ordered where
  compare? : ObjectView → ObjectView → Option Ordering
  greaterThan? : ObjectView → ObjectView → Option Bool := fun a b => (compare? a b).map (·.isGT)
  greaterThanEqual? : ObjectView → ObjectView → Option Bool := fun a b => (compare? a b).map (·.isGE)
  lessThan? : ObjectView → ObjectView → Option Bool := fun a b => (compare? a b).map (·.isLT)
  lessThanEqual? : ObjectView → ObjectView → Option Bool := fun a b => (compare? a b).map (·.isLE)

/-- A name alone stands for the usual text, which is the name with the number in parentheses. -/
instance : Coe String Label := ⟨fun name => ⟨fun a => name ++ "(" ++ a.amount.render ++ ")"⟩⟩

/-- The usual equality is that of the numbers, among objects of one name. -/
def Equatable.byAmount : Equatable where
  equal? a b := if a.name = b.name then some (a.amount = b.amount) else none

/-- So is the usual order. -/
def Ordered.byAmount : Ordered where
  compare? a b := if a.name = b.name then some (a.amount.compare b.amount) else none

/-- A flag stands for the usual equality, or for none. -/
instance : Coe Bool (Option Equatable) := ⟨fun able => if able then some .byAmount else none⟩

instance : Coe Bool (Option Ordered) := ⟨fun able => if able then some .byAmount else none⟩

/-- A kind of value objects, as the calling program defines it. -/
structure ObjectKind where
  /-- The name in messages. -/
  name : String
  label : Label
  /-- How objects of the kind are tested for equality, if they can be. -/
  equatable : Option Equatable
  /-- How objects of the kind are ordered, if they are. -/
  ordered : Option Ordered

/-- A value object: a number with a meaning of its own. Each object has an identity, which all its
copies share. -/
structure ValueObject where
  kind : ObjectKind
  amount : Integer
  identity : Nat

namespace ValueObject

def view (a : ValueObject) : ObjectView := ⟨a.kind.name, a.amount, a.identity⟩

/-- Whether an object says that it equals another one, which is not asked. -/
def equal? (a b : ValueObject) : Option Bool := a.kind.equatable.bind (·.equal? a.view b.view)

def render (a : ValueObject) : String := a.kind.label.text a.view

end ValueObject

/-! ## Values and their types -/

/-- A value. -/
inductive Value where
  /-- Nothing known: NULL in SQL and `null` in JSON. -/
  | null
  | boolean (b : Bool)
  | integer (n : Integer)
  | float (x : Binary64)
  | decimal (d : Decimal)
  | text (s : String)
  | instant (t : Instant)
  | duration (d : Duration)
  | array (items : List Value)
  /-- A nested scope. -/
  | object (entries : List (String × Value))
  /-- A value object of the calling program. -/
  | custom (o : ValueObject)
  deriving Inhabited

/-- The type of a value, by which operators are chosen. -/
inductive ValueType where
  | null | boolean | integer | float | decimal | text | instant | duration | array | object | custom
  deriving DecidableEq, Repr

namespace ValueType

/-- All types. -/
def all : List ValueType :=
  [null, boolean, integer, float, decimal, text, instant, duration, array, object, custom]

example (type : ValueType) : type ∈ all := by cases type <;> decide

/-- The name in messages. -/
def name : ValueType → String
  | null => "null"
  | boolean => "boolean"
  | integer => "integer"
  | float => "float"
  | decimal => "decimal"
  | text => "string"
  | instant => "instant"
  | duration => "duration"
  | array => "array"
  | object => "object"
  | custom => "custom"

end ValueType

namespace Value

def type : Value → ValueType
  | null => .null
  | boolean _ => .boolean
  | integer _ => .integer
  | float _ => .float
  | decimal _ => .decimal
  | text _ => .text
  | instant _ => .instant
  | duration _ => .duration
  | array _ => .array
  | object _ => .object
  | custom _ => .custom

/-- The name of the type in messages; a value object goes by the name of its kind. -/
def typeName : Value → String
  | custom o => o.kind.name
  | v => v.type.name

/-- The object with these entries; of several with one name the last is kept. -/
def ofEntries (entries : List (String × Value)) : Value := object (Entries.ofList entries)

def isNull : Value → Bool
  | null => true
  | _ => false

/-- The truth value of a boolean. No other value is true or false. -/
def asBool? : Value → Option Bool
  | boolean b => some b
  | _ => none

/-- The whole number that a number is, if it is one in range. -/
def asInteger? : Value → Option Integer
  | integer n => some n
  | float x => x.toInteger?
  | decimal d => if d.isWhole then d.truncate? else none
  | _ => none

/-- The binary number nearest to a number. -/
def asFloat? : Value → Option Binary64
  | integer n => some (.ofInt n.toInt)
  | float x => some x
  | decimal d => some d.toBinary64
  | _ => none

def asText? : Value → Option String
  | text s => some s
  | _ => none

/-! ## Equality -/

mutual

/-- Equality of values, as a program sees it. Values of different types differ, `nan` differs from
itself, and two value objects are equal if they are one object or the first one says so. -/
def equal : Value → Value → Bool
  | null, null => true
  | boolean a, boolean b => a == b
  | integer a, integer b => a == b
  | float a, float b => a.equal b
  | decimal a, decimal b => a.compare b == .eq
  | text a, text b => a == b
  | instant a, instant b => a == b
  | duration a, duration b => a == b
  | array a, array b => equalItems a b
  | object a, object b => equalEntries a b
  | custom a, custom b => a.identity == b.identity || a.equal? b == some true
  | _, _ => false

/-- Lists are equal item by item. -/
def equalItems : List Value → List Value → Bool
  | [], [] => true
  | a :: as, b :: bs => equal a b && equalItems as bs
  | _, _ => false

/-- Objects are equal if they have the same names with equal values. -/
def equalEntries : List (String × Value) → List (String × Value) → Bool
  | [], [] => true
  | (m, a) :: as, (n, b) :: bs => m == n && equal a b && equalEntries as bs
  | _, _ => false

end

/-! ## Text -/

mutual

/-- The text of a value in messages: strings quoted, objects in braces in the order of names. -/
def render : Value → String
  | null => "null"
  | boolean b => if b then "true" else "false"
  | integer n => n.render
  | float x => x.render
  | decimal d => d.render
  | text s => Text.quoted s
  | instant t => t.render
  | duration d => d.render
  | array items => "[" ++ ", ".intercalate (renderItems items) ++ "]"
  | object entries => "\x7b" ++ ", ".intercalate (renderEntries entries) ++ "\x7d"
  | custom o => o.render

/-- The texts of the items of a list. -/
def renderItems : List Value → List String
  | [] => []
  | v :: rest => render v :: renderItems rest

/-- The texts of the entries of an object. -/
def renderEntries : List (String × Value) → List String
  | [] => []
  | (name, v) :: rest => (Text.quoted name ++ ": " ++ render v) :: renderEntries rest

end

end Value

end DataFilter
