import DataFilter.Entries

/-!
# How collections are stored

A collection of a table is either embedded, an array on the row itself, or relational, the rows of
another table that refer back to it. A schema says which, for the collections of each table that it
knows.
-/

namespace DataFilter

/-- A column of the child table that holds a column of its parent. -/
structure JoinKey where
  child : String
  parent : String
  deriving DecidableEq

/-- The table of a relational collection. -/
structure Relation where
  table : String
  /-- The columns that join child and parent. -/
  keys : List JoinKey
  /-- What to name the child row after, in place of the collection. -/
  shortName : Option String
  deriving DecidableEq

/-- How a collection is stored. -/
inductive CollectionMapping where
  | embedded
  | relational (relation : Relation)
  deriving DecidableEq

/-- A table and its collections. -/
structure TableSchema where
  table : String
  /-- The name that conditions use for the table. -/
  shortName : Option String
  collections : Entries CollectionMapping
  deriving DecidableEq

namespace TableSchema

/-- How a collection of the table is stored. -/
def mapping? (schema : TableSchema) (field : String) : Option CollectionMapping :=
  schema.collections.get? field

/-- How child tables refer to the table: by its short name, else by its name. -/
def reference (schema : TableSchema) : String := schema.shortName.getD schema.table

end TableSchema

/-- The tables that are known, by name. -/
structure Schema where
  tables : Entries TableSchema

namespace Schema

/-- No table is known. -/
def empty : Schema := ⟨[]⟩

/-- Adds a table, replacing what was known under its name. -/
def register (schema : Schema) (table : TableSchema) : Schema :=
  ⟨schema.tables.insert table.table table⟩

/-- The table with a name. -/
def table? (schema : Schema) (name : String) : Option TableSchema := schema.tables.get? name

/-- Registers tables one after the other. -/
def ofTables (tables : List TableSchema) : Schema := tables.foldl register empty

/-- A table is found under its name, and no other name is affected. -/
theorem table?_register (schema : Schema) (table : TableSchema) (name : String) :
    (schema.register table).table? name =
      if name = table.table then some table else schema.table? name :=
  Entries.get?_insert _ _ _ _

end Schema

end DataFilter
