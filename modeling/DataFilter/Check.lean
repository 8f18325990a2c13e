import DataFilter.Json.Read
import DataFilter.Json.Value
import DataFilter.Schema.Json
import DataFilter.Specification

/-!
# Checking a template

One call reads a template with parameters given as text, and then validates it, decides it against a
JSON document, or compiles it. The first fault counts: the template's, then the parameters', then
that of the rest.
-/

namespace DataFilter.Check

/-- What to do with a template. -/
inductive Mode where
  | validate
  | decide
  | compile
  deriving DecidableEq, Repr

/-- All that a check is given. -/
structure Options where
  template : String
  mode : Mode
  /-- The JSON document to decide against. -/
  input : Option String
  /-- Positional parameters: JSON, or else plain text. -/
  params : List String
  /-- Named parameters in the form `name=value`. -/
  named : List String
  /-- The text of a schema file. -/
  schema : Option String
  /-- The table that the condition is about. -/
  table : Option String

/-- Why a check fails. -/
inductive Failure where
  | specification (error : Error)
  /-- Some text is not the JSON that it should be. -/
  | json
  | invalidNamed (text : String)
  | noInput
  deriving DecidableEq

def Failure.message : Failure → String
  | specification e => e.message
  | json => "Invalid JSON"
  | invalidNamed text => "Invalid named parameter '" ++ text ++ "', expected name=value"
  | noInput => "No input provided. Use --input or pipe JSON to stdin."

/-- The outcome of a check. -/
inductive Outcome where
  /-- The template is valid; its tree, in the spelling of templates. -/
  | valid (tree : String)
  | decided (satisfied : Bool)
  | compiled (sql : Sql.Compiled)

/-- The outcome as a document. -/
def Outcome.toJson : Outcome → Json
  | valid tree => .ofMembers [("valid", .bool true), ("tree", .string tree)]
  | decided satisfied => .ofMembers [("matched", .bool satisfied)]
  | compiled sql =>
    .ofMembers [("sql", .string sql.sql), ("params", .array (sql.parameters.map Value.toJson))]

/-- A parameter: JSON, or else the text as it is. -/
def parameter (text : String) : Value := ((Json.ofText? text).map Json.toValue).getD (.text text)

/-- A named parameter, split at the first equals sign. Blanks around the name do not count. -/
def namedParameter? (text : String) : Option (String × Value) :=
  let name := text.toList.takeWhile (· ≠ '=')
  match text.toList.dropWhile (· ≠ '=') with
  | _ :: value => some (Text.trimBlanks (String.ofList name), parameter (String.ofList value))
  | [] => none

/-- The parameters of a check; of several with one name the last is used. -/
def parameters (params named : List String) : Except Failure Parameters := do
  let entries ← named.mapM fun text =>
    match namedParameter? text with
    | some entry => .ok entry
    | none => .error (.invalidNamed text)
  return ⟨params.map parameter, Entries.ofList entries⟩

/-- Something read from JSON text. -/
def readJson {α : Type} (found : Option α) : Except Failure α :=
  match found with
  | some a => .ok a
  | none => .error .json

/-- Runs a check. -/
def run (options : Options) : Except Failure Outcome := do
  let spec ← (Specification.parse options.template).mapError (.specification ∘ .template)
  let params ← parameters options.params options.named
  match options.mode with
  | .validate => return .valid spec.tree.render
  | .decide =>
    match options.input with
    | none => throw .noInput
    | some text => do
      let document ← readJson (Json.ofText? text)
      let satisfied ← (spec.isSatisfiedBy (.ofJson document) params).mapError .specification
      return .decided satisfied
  | .compile => do
    let schema ← match options.schema with
      | some text => readJson (Schema.ofText? text)
      | none => pure .empty
    let around := match options.table with
      | some table => Sql.Surroundings.ofTable schema table
      | none => .unknown
    let sql ← (spec.compile params around).mapError .specification
    return .compiled sql

end DataFilter.Check
