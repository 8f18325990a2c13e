import DataFilter.Proofs.Sql.Reading

/-!
# References point at the right row

Compiling carries the row of the innermost collection test along. What a reference should mean is
said here without it, by the tests around its place in the tree: a name behind `@` is one of the row
of the innermost of them, a name behind `$` is one of the row outside of all, and the table of a row
is told by how the collection of its test is stored. The proof is by induction on the compiled tree,
with the surroundings at each place determined by the tests around it (`Surroundings.within`). A
test counts for its own predicate only, so that what follows it is outside of it again.
-/

namespace DataFilter.Sql

/-! ## What names mean inside of tests -/

/-- A collection test around a place: what it ranges over, and the name of its rows. -/
structure EnclosingTest where
  parent : Node
  rowName : String

/-- The relation as which a table stores a collection. -/
def relation? (owner : Option TableSchema) (parent : Node) : Option Relation :=
  match owner.bind fun table => parent.name?.bind table.mapping? with
  | some (.relational relation) => some relation
  | _ => none

/-- The table of the rows of the innermost test. Related rows have the table of their relation, if
the schema knows it, and elements of an array have none. -/
def rowTable (schema : Schema) (root : Option TableSchema) :
    List EnclosingTest → Option TableSchema
  | [] => none
  | test :: outer =>
    let owner := if test.parent.root? = some .element then rowTable schema root outer else root
    (relation? owner test.parent).bind fun relation => schema.table? relation.table

/-- The table that owns a collection: behind `@` the one of the innermost row, else the root
table. -/
def ownerTable (schema : Schema) (root : Option TableSchema) (tests : List EnclosingTest)
    (parent : Node) : Option TableSchema :=
  if parent.root? = some .element then rowTable schema root tests else root

theorem rowTable_cons (schema : Schema) (root : Option TableSchema) (test : EnclosingTest)
    (outer : List EnclosingTest) :
    rowTable schema root (test :: outer) =
      (relation? (ownerTable schema root outer test.parent) test.parent).bind fun relation =>
        schema.table? relation.table := rfl

/-- How joins call the row that owns a collection: behind `@` by the name of the innermost row, else
as child tables refer to the root table. -/
def ownerName? (root : Option TableSchema) (tests : List EnclosingTest) (parent : Node) :
    Option String :=
  if parent.root? = some .element then tests.head?.map (·.rowName) else root.map (·.reference)

/-- The dotted name of what names in a scope mean: behind `@` it begins with the name of the
innermost row, behind `$` with nothing. -/
def qualified? (tests : List EnclosingTest) (scope : Node) (names : List String) :
    Option (List String) :=
  match scope.root? with
  | some .element => tests.head?.map fun test => test.rowName :: names
  | some .document => some names
  | none => none

/-! ## Conditions whose references are right -/

section Right

variable (schema : Schema) (root : Option TableSchema)

/-- What a test ranges over is what its collection means where the test stands. -/
def Source.IsRight (tests : List EnclosingTest) (parent : Node) : Source → Prop
  | .elements array =>
    relation? (ownerTable schema root tests parent) parent = none ∧
      qualified? tests parent parent.path = some array
  | .rows table joins =>
    ∃ relation owner, relation? (ownerTable schema root tests parent) parent = some relation ∧
      ownerName? root tests parent = some owner ∧ table = relation.table ∧
      joins = relation.keys.map fun key => ⟨key.child, owner, key.parent⟩

/-- The condition has the form of the tree, and each of its names means what the reference in its
place means. -/
def PointsRight : List EnclosingTest → Node → Condition → Prop
  | _, .value _, .parameter _ => True
  | tests, .field scope name, .column names =>
    qualified? tests scope (scope.path ++ [name]) = some names
  | tests, .collection parent predicate, .exists source rowName condition =>
    source.IsRight schema root tests parent ∧
      PointsRight (⟨parent, rowName⟩ :: tests) predicate condition
  | tests, .prefixed op operand _, .prefixed op' condition _ =>
    op = op' ∧ PointsRight tests operand condition
  | tests, .infixed left op right _, .infixed l op' r _ =>
    PointsRight tests left l ∧ op = op' ∧ PointsRight tests right r
  | tests, .postfixed operand op _, .postfixed condition op' _ =>
    PointsRight tests operand condition ∧ op = op'
  | _, _, _ => False

end Right

/-! ## Surroundings and the tests around them -/

namespace Surroundings

/-- The surroundings inside of tests. -/
def within (around : Surroundings) (tests : List EnclosingTest) : Surroundings :=
  { around with element := tests.head?.map fun test =>
      ⟨some test.rowName, rowTable around.schema around.document.table tests⟩ }

theorem within_cons (around : Surroundings) (test : EnclosingTest) (outer : List EnclosingTest) :
    around.within (test :: outer) = (around.within outer).inside
      ⟨some test.rowName, rowTable around.schema around.document.table (test :: outer)⟩ := rfl

/-- The row of the whole condition goes by the reference of its table. -/
def IsNamedAfterTable (around : Surroundings) : Prop :=
  around.document.name = around.document.table.map (·.reference)

theorem IsOutermost.isNamedAfterTable {around : Surroundings} (h : around.IsOutermost) :
    around.IsNamedAfterTable := by
  cases h <;> rfl

theorem IsOutermost.within_nil {around : Surroundings} (h : around.IsOutermost) :
    around.within [] = around := by
  cases h <;> rfl

variable {around : Surroundings} {tests : List EnclosingTest} {parent : Node}

theorem base?_within {scope : Node} {root : Root} {base : List String}
    (anchored : scope.root? = some root) (found : (around.within tests).base? root = some base)
    (names : List String) : qualified? tests scope names = some (base ++ names) := by
  rw [qualified?, anchored]
  cases root with
  | document =>
      cases found
      rfl
  | element =>
      cases tests with
      | nil => cases found
      | cons test outer =>
          cases found
          rfl

variable {owner : Row}

/-- A collection is owned by the innermost row or by the row outside of all tests. -/
theorem owner?_within_eq_some (owned : (around.within tests).owner? parent = some owner) :
    (parent.root? = some .element ∧ ∃ test outer, tests = test :: outer ∧
        owner = ⟨some test.rowName, rowTable around.schema around.document.table tests⟩) ∨
      (parent.root? ≠ some .element ∧ owner = around.document) := by
  unfold owner? at owned
  split at owned
  · rename_i anchored
    obtain ⟨test, found, rfl⟩ := Option.map_eq_some_iff.mp owned
    obtain ⟨outer, rfl⟩ := List.head?_eq_some_iff.mp found
    exact .inl ⟨anchored, test, outer, rfl, rfl⟩
  · rename_i anchored
    exact .inr ⟨anchored, (Option.some.inj owned).symm⟩

theorem table_of_owner? (owned : (around.within tests).owner? parent = some owner) :
    owner.table = ownerTable around.schema around.document.table tests parent := by
  rcases owner?_within_eq_some owned with ⟨anchored, test, outer, rfl, rfl⟩ | ⟨anchored, rfl⟩
  · rw [ownerTable, if_pos anchored]
  · rw [ownerTable, if_neg anchored]

theorem name_of_owner? (named : around.IsNamedAfterTable)
    (owned : (around.within tests).owner? parent = some owner) :
    owner.name = ownerName? around.document.table tests parent := by
  rcases owner?_within_eq_some owned with ⟨anchored, test, outer, rfl, rfl⟩ | ⟨anchored, rfl⟩
  · rw [ownerName?, if_pos anchored]
    rfl
  · rw [ownerName?, if_neg anchored]
    exact named

/-- A row whose table is known has a name. -/
theorem exists_name_of_table (named : around.IsNamedAfterTable)
    (owned : (around.within tests).owner? parent = some owner) {table : TableSchema}
    (known : owner.table = some table) : ∃ reference, owner.name = some reference := by
  rcases owner?_within_eq_some owned with ⟨_, test, outer, rfl, rfl⟩ | ⟨_, rfl⟩
  · exact ⟨test.rowName, rfl⟩
  · exact ⟨table.reference, named.trans (congrArg (Option.map (·.reference)) known)⟩

end Surroundings

/-! ## Tests -/

section Ranges

variable {around : Surroundings} {tests : List EnclosingTest} {scope : Node} {name : String}
  {number : Nat} {source : Source} {rowName : String} {row : Row}

theorem relation?_eq_some {owner : Option TableSchema} {relation : Relation}
    (stored : owner.bind (·.mapping? name) = some (.relational relation)) :
    relation? owner (.object scope name) = some relation := by
  unfold relation?
  rw [show (owner.bind fun table => (Node.object scope name).name?.bind table.mapping?) =
    some (.relational relation) from stored]

theorem relation?_eq_none {owner : Option TableSchema}
    (stored : ∀ relation, owner.bind (·.mapping? name) ≠ some (.relational relation)) :
    relation? owner (.object scope name) = none := by
  unfold relation?
  split
  · rename_i relation found
    exact absurd found (stored relation)
  · rfl

/-- What a test ranges over is right. -/
theorem Ranges.isRight (named : around.IsNamedAfterTable)
    (h : Ranges (around.within tests) (.object scope name) name number source rowName row) :
    source.IsRight around.schema around.document.table tests (.object scope name) := by
  cases h with
  | elements owned stored anchored found _ =>
      rw [Surroundings.table_of_owner? owned] at stored
      exact ⟨relation?_eq_none stored, Surroundings.base?_within anchored found _⟩
  | @rows owner relation owned stored _ _ _ =>
      obtain ⟨table, known, -⟩ := Option.bind_eq_some_iff.mp stored
      obtain ⟨reference, called⟩ := Surroundings.exists_name_of_table named owned known
      rw [Surroundings.table_of_owner? owned] at stored
      refine ⟨relation, reference, relation?_eq_some stored, ?_, rfl, ?_⟩
      · rw [← Surroundings.name_of_owner? named owned, called]
      · rw [Surroundings.joinsTo, called]
        rfl

/-- Inside of a test, the surroundings are those of one more test. -/
theorem Ranges.inside
    (h : Ranges (around.within tests) (.object scope name) name number source rowName row) :
    (around.within tests).inside row = around.within (⟨.object scope name, rowName⟩ :: tests) := by
  cases h with
  | elements owned stored _ _ _ =>
      rw [Surroundings.table_of_owner? owned] at stored
      rw [Surroundings.within_cons, rowTable_cons, relation?_eq_none stored]
      rfl
  | rows owned stored _ _ _ =>
      rw [Surroundings.table_of_owner? owned] at stored
      rw [Surroundings.within_cons, rowTable_cons, relation?_eq_some stored]
      rfl

end Ranges

/-! ## Trees -/

theorem Compiles.pointsRight {around place : Surroundings} {tree : Node} {out after : Output}
    {condition : Condition} (h : Compiles place tree out condition after)
    (named : around.IsNamedAfterTable) {tests : List EnclosingTest}
    (within : place = around.within tests) :
    PointsRight around.schema around.document.table tests tree condition := by
  -- only the predicate of a test is inside of it, all other parts stand where the whole stands
  induction h generalizing tests with
  | literal v out => trivial
  | field anchored found _ _ =>
      subst within
      exact Surroundings.base?_within anchored found _
  | collection ranges _ ih =>
      subst within
      exact ⟨ranges.isRight named, ih ranges.inside⟩
  | prefixed _ ih => exact ⟨rfl, ih within⟩
  | infixed _ _ ihl ihr => exact ⟨ihl within, rfl, ihr within⟩
  | postfixed _ ih => exact ⟨ih within, rfl⟩

/-- Every reference in the SQL of a tree points at the right row, in however many tests. -/
theorem pointsRight_ofNode {around : Surroundings} (outermost : around.IsOutermost) {tree : Node}
    {compiled : Compiled} (h : ofNode around tree = .ok compiled) :
    ∃ condition out, (compile around tree).run ⟨[], 0⟩ = .ok (condition, out) ∧
      compiled = ⟨condition.render, out.parameters⟩ ∧
      PointsRight around.schema around.document.table [] tree condition := by
  obtain ⟨condition, out, written, rfl⟩ := ofNode_eq_ok h
  refine ⟨condition, out, written, rfl, ?_⟩
  exact (compiles_of_compile written).pointsRight outermost.isNamedAfterTable
    outermost.within_nil.symm

/-- Orders with their lines, and the parts of these. -/
def nestedSchema : Schema :=
  .ofTables
    [⟨"orders", some "o", [("Lines", .relational ⟨"lines", [⟨"order_id", "id"⟩], some "l"⟩)]⟩,
      ⟨"lines", none, [("Parts", .relational ⟨"parts", [⟨"line_id", "id"⟩], none⟩)]⟩]

/-- `$.Lines[*][?@.Parts[*][?@.tags[*][?@.name == $.note && $.Lines[*][?@.open]]] && @.open]` or
`$.open` -/
def nestedTree : Node :=
  let tags : Node := .collection (.object .item "tags")
    (.between (.between (.field .item "name") .equal (.field .globalScope "note")) .and
      (.collection (.object .globalScope "Lines") (.field .item "open")))
  .between
    (.collection (.object .globalScope "Lines")
      (.between (.collection (.object .item "Parts") tags) .and (.field .item "open")))
    .or (.field .globalScope "open")

/-- An array in related rows in related rows, and in it the lines of the whole order. -/
theorem pointsRight_nestedTree : ∃ compiled,
    ofNode (.ofTable nestedSchema "orders") nestedTree = .ok compiled ∧
      compiled.sql = "EXISTS (SELECT 1 FROM lines AS l_1 WHERE l_1.order_id = o.id AND " ++
        "EXISTS (SELECT 1 FROM parts AS part_2 WHERE part_2.line_id = l_1.id AND " ++
        "EXISTS (SELECT 1 FROM unnest(part_2.tags) AS tag_3 WHERE tag_3.name = note AND " ++
        "EXISTS (SELECT 1 FROM lines AS l_4 WHERE l_4.order_id = o.id AND l_4.open))) AND " ++
        "l_1.open) OR open" ∧
      ∃ condition out,
        (compile (.ofTable nestedSchema "orders") nestedTree).run ⟨[], 0⟩ = .ok (condition, out) ∧
          compiled = ⟨condition.render, out.parameters⟩ ∧
          PointsRight nestedSchema (nestedSchema.table? "orders") [] nestedTree condition := by
  refine ⟨_, rfl, by decide +kernel, ?_⟩
  exact pointsRight_ofNode (.ofTable nestedSchema "orders") rfl

end DataFilter.Sql
