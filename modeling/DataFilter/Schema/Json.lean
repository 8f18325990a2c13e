import DataFilter.Json.Read
import DataFilter.Schema

/-!
# Schema files

A schema file is an object with the list `tables`. A table has a name, and optionally an alias and
its collections; a collection has a `kind`, and a relational one a table and optionally join keys
and an alias. Unknown names are ignored, a known name may not be repeated, and a record may also be
written as the list of its fields in order, from which optional fields at the end may be missing.
-/

namespace DataFilter.Schema

open DataFilter.Json (Written)

/-- The one member with a name: none, or refused if there are several. -/
def member? (members : List (List Char × Written)) (name : String) : Option (Option Written) :=
  match members.filter fun m => Json.stringOfContent? m.1 = some name with
  | [] => some none
  | [(_, v)] => some (some v)
  | _ => none

/-- The fields of a record, each with its value if it has one. -/
def fields? (names : List String) : Written → Option (List (Option Written))
  | .object members =>
    if members.all fun m => (Json.stringOfContent? m.1).isSome then names.mapM (member? members)
    else none
  | .array items =>
    if items.length ≤ names.length then
      some (items.map some ++ List.replicate (names.length - items.length) none)
    else none
  | _ => none

/-- A string. -/
def text? : Written → Option String
  | .string content => Json.stringOfContent? content
  | _ => none

/-- A field that has to be there. -/
def required {α : Type} (read : Written → Option α) (field : Option Written) : Option α :=
  field.bind read

/-- A field with a value for when it is missing. -/
def optional {α : Type} (fallback : α) (read : Written → Option α) : Option Written → Option α
  | none => some fallback
  | some v => read v

/-- A string or null. -/
def shortName? : Written → Option (Option String)
  | .null => some none
  | v => (text? v).map some

/-- A list of records. -/
def list? {α : Type} (read : Written → Option α) : Written → Option (List α)
  | .array items => items.mapM read
  | _ => none

/-- A join key. -/
def joinKey? (v : Written) : Option JoinKey := do
  match ← fields? ["child", "parent"] v with
  | [child, parent] => return ⟨← required text? child, ← required text? parent⟩
  | _ => none

/-- The table of a relational collection. -/
def relation? (v : Written) : Option Relation := do
  match ← fields? ["table", "keys", "alias"] v with
  | [table, keys, shortName] =>
    return ⟨← required text? table, ← optional [] (list? joinKey?) keys,
      ← optional none shortName? shortName⟩
  | _ => none

/-- A mapping, whose `kind` says how to read the other fields. -/
def mappingOfKind? (kind : String) (others : Written) : Option CollectionMapping :=
  match kind with
  | "embedded" =>
    match others with
    | .array (_ :: _) => none
    | _ => some .embedded
  | "relational" => (relation? others).map .relational
  | _ => none

/-- How many levels of nesting are left inside a mapping: the file, the list of tables, the table
and its collections have taken theirs. -/
def levelsInMapping : Nat := Json.levelLimit - 4

/-- A mapping. All of it has to have a meaning, unknown fields included. -/
def mapping? (v : Written) : Option CollectionMapping := do
  let _ ← v.read? levelsInMapping
  match v with
  | .object members =>
    let kind ← required text? (← member? members "kind")
    mappingOfKind? kind
      (.object (members.filter fun m => Json.stringOfContent? m.1 ≠ some "kind"))
  | .array (first :: rest) => mappingOfKind? (← text? first) (.array rest)
  | _ => none

/-- The collections of a table, by name; of several with one name the last is kept. -/
def collections? : Written → Option (Entries CollectionMapping)
  | .object members => do
    let found ← members.mapM fun m => return (← Json.stringOfContent? m.1, ← mapping? m.2)
    return Entries.ofList found
  | _ => none

/-- A table. -/
def tableSchema? (v : Written) : Option TableSchema := do
  match ← fields? ["table", "alias", "collections"] v with
  | [table, shortName, collections] =>
    return ⟨← required text? table, ← optional none shortName? shortName,
      ← optional [] collections? collections⟩
  | _ => none

/-- The schema of a file. -/
def ofText? (text : String) : Option Schema := do
  match ← fields? ["tables"] (← Written.ofText? text) with
  | [tables] => return ofTables (← required (list? tableSchema?) tables)
  | _ => none

/-! ## Writing -/

/-- An alias, or null. -/
def ofAlias : Option String → Json
  | none => .null
  | some name => .string name

/-- A join key with both columns. -/
def ofJoinKey (key : JoinKey) : Json :=
  .ofMembers [("child", .string key.child), ("parent", .string key.parent)]

/-- A mapping with all its fields. -/
def ofMapping : CollectionMapping → Json
  | .embedded => .ofMembers [("kind", .string "embedded")]
  | .relational relation =>
    .ofMembers [("kind", .string "relational"), ("table", .string relation.table),
      ("keys", .array (relation.keys.map ofJoinKey)), ("alias", ofAlias relation.shortName)]

/-- A table with all its fields. -/
def ofTableSchema (schema : TableSchema) : Json :=
  .ofMembers [("table", .string schema.table), ("alias", ofAlias schema.shortName),
    ("collections",
      .ofMembers (schema.collections.map fun entry => (entry.1, ofMapping entry.2)))]

end DataFilter.Schema
