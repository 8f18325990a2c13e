import DataFilter.Proofs.Sql.Referring

/-!
# Tables that hold all of their collections

Where no row within reach has a collection in another table, compiling never asks the schema for a
table: each test ranges over an array, and the elements of an array have no table themselves, so no
depth of nesting leads to one. What is compiled then depends on nothing but the name of the element
under test. In particular a table of which nothing is known is compiled in the same way.
-/

namespace DataFilter

/-- Every collection that is described is an array on the row itself. -/
def TableSchema.IsEmbedded (table : TableSchema) : Prop :=
  ∀ field mapping, table.mapping? field = some mapping → mapping = .embedded

namespace Sql

/-- The row has no collections in other tables. -/
def Row.IsEmbedded (row : Row) : Prop := ∀ known, row.table = some known → known.IsEmbedded

theorem Row.isEmbedded_of_table_none {row : Row} (h : row.table = none) : row.IsEmbedded := by
  intro known found
  rw [h] at found
  cases found

theorem Row.IsEmbedded.not_relational {row : Row} (h : row.IsEmbedded) {name : String}
    {relation : Relation} : row.table.bind (·.mapping? name) ≠ some (.relational relation) := by
  intro found
  obtain ⟨known, isTable, mapped⟩ := Option.bind_eq_some_iff.mp found
  cases h known isTable name _ mapped

namespace Surroundings

/-- None of the rows that a collection can belong to has collections in other tables. -/
structure IsEmbedded (around : Surroundings) : Prop where
  document : around.document.IsEmbedded
  element : ∀ row, around.element = some row → row.IsEmbedded

/-- The element under test has one name in both. -/
def SameElement (around other : Surroundings) : Prop :=
  around.element.map (·.name) = other.element.map (·.name)

/-- What a test ranges over if the collection is an array. -/
def elements (around : Surroundings) (parent : Node) (name : String) :
    Step (Source × String × Row) := do
  let array ← around.reference parent none
  let rowName ← freshAlias (singularize name)
  return (.elements array, rowName, ⟨some rowName, none⟩)

variable {around other : Surroundings}

/-- Where the owner is not relational, or there is no owner at all, a test ranges over an array. -/
theorem IsEmbedded.collection_eq (h : around.IsEmbedded) (parent : Node) (name : String) :
    around.collection parent name = around.elements parent name := by
  have array : ∀ row : Row, row.IsEmbedded → around.owner parent = pure row →
      around.collection parent name = around.elements parent name := by
    intro row embedded owned
    rw [collection, owned, pure_bind]
    split
    · exact absurd ‹_› embedded.not_relational
    · rfl
  cases root : parent.root? with
  | none => exact array around.document h.document (by rw [owner, root])
  | some root' =>
      cases root' with
      | document => exact array around.document h.document (by rw [owner, root])
      | element =>
          cases row : around.element with
          | some row' => exact array row' (h.element row' row) (by rw [owner, root, row])
          | none =>
              -- without an element the reference to the array fails as the look-up of its owner
              rw [collection, elements, reference, owner, base, root, row]
              rfl

theorem SameElement.base_eq (h : SameElement around other) (scope : Node) :
    around.base scope = other.base scope := by
  unfold SameElement at h
  cases left : around.element with
  | none =>
      rw [left, Option.map_none, eq_comm, Option.map_eq_none_iff] at h
      rw [base, base, left, h]
  | some row =>
      rw [left, Option.map_some, eq_comm, Option.map_eq_some_iff] at h
      obtain ⟨row', right, same⟩ := h
      rw [base, base, left, right]
      cases scope.root? with
      | none => rfl
      | some root =>
          cases root with
          | document => rfl
          | element =>
              show (pure row.name.toList : Step (List String)) = pure row'.name.toList
              rw [same]

theorem SameElement.reference_eq (h : SameElement around other) (scope : Node)
    (name : Option String) : around.reference scope name = other.reference scope name := by
  rw [reference, reference, h.base_eq]

theorem SameElement.elements_eq (h : SameElement around other) (parent : Node) (name : String) :
    around.elements parent name = other.elements parent name := by
  rw [elements, elements, h.reference_eq]

/-- The element of an array has no table, so nothing beneath it is in another one. -/
theorem IsEmbedded.inside (h : around.IsEmbedded) {row : Row} (unknown : row.table = none) :
    (around.inside row).IsEmbedded where
  document := h.document
  element := by
    rintro _ ⟨⟩
    exact Row.isEmbedded_of_table_none unknown

/-- Two tests of one array whose conditions agree on every element agree. -/
theorem elements_bind_congr {α : Type} {f g : Source × String × Row → Step α} (parent : Node)
    (name : String) (h : ∀ array rowName, f (.elements array, rowName, ⟨some rowName, none⟩) =
      g (.elements array, rowName, ⟨some rowName, none⟩)) :
    (around.elements parent name >>= f) = around.elements parent name >>= g := by
  simp only [elements, bind_assoc, pure_bind, h]

end Surroundings

variable {around other : Surroundings}

/-- Where all collections are arrays, the name of the element is all that compiling depends on. -/
theorem compile_eq_of_isEmbedded (tree : Node) (left : around.IsEmbedded) (right : other.IsEmbedded)
    (same : Surroundings.SameElement around other) : compile around tree = compile other tree := by
  induction tree generalizing around other with
  | value operand => cases operand <;> rfl
  | globalScope => rfl
  | item => rfl
  | object parent name _ => rfl
  | field scope name _ => rw [compile, compile, same.reference_eq]
  | collection parent predicate _ ih =>
      cases parent with
      | object scope name =>
          rw [compile, compile, left.collection_eq, right.collection_eq, same.elements_eq]
          refine Surroundings.elements_bind_congr _ _ fun array rowName => ?_
          -- both go on with one and the same element, which has no table
          exact congrArg (· >>= _) (ih (left.inside rfl) (right.inside rfl) rfl)
      | _ => rfl
  | prefixed op operand grouping ih => rw [compile, compile, ih left right same]
  | infixed left' op right' grouping ihl ihr =>
      rw [compile, compile, ihl left right same, ihr left right same]
  | postfixed operand op grouping ih => rw [compile, compile, ih left right same]

/-- A table without relational collections is compiled as if nothing were known, whatever the
schema says of other tables, and fails where that fails. -/
theorem ofNode_ofTable_eq_unknown {schema : Schema} {table : String}
    (h : ∀ known, schema.table? table = some known → known.IsEmbedded) (tree : Node) :
    ofNode (.ofTable schema table) tree = ofNode .unknown tree := by
  have left : (Surroundings.ofTable schema table).IsEmbedded := ⟨h, nofun⟩
  have right : Surroundings.unknown.IsEmbedded := ⟨Row.isEmbedded_of_table_none rfl, nofun⟩
  rw [ofNode, ofNode, compile_eq_of_isEmbedded tree left right rfl]

/-- Archived orders keep their lines in an array, other tables have lines of their own. -/
def archiveSchema : Schema :=
  .ofTables
    [⟨"archives", some "a", [("Lines", .embedded), ("tags", .embedded)]⟩,
      ⟨"a", none, [("Lines", .relational ⟨"lines", [⟨"order_id", "id"⟩], some "l"⟩)]⟩,
      ⟨"lines", none, [("Parts", .relational ⟨"parts", [⟨"line_id", "id"⟩], none⟩)]⟩]

/-- Tests in tests, and one of them on the row outside of all. -/
theorem ofNode_archives_nestedTree :
    (∀ known, archiveSchema.table? "archives" = some known → known.IsEmbedded) ∧
      ofNode (.ofTable archiveSchema "archives") nestedTree = ofNode .unknown nestedTree ∧
      ofNode (.ofTable archiveSchema "a") nestedTree ≠ ofNode .unknown nestedTree := by
  have embedded : ∀ known, archiveSchema.table? "archives" = some known → known.IsEmbedded := by
    rintro _ ⟨⟩ field mapping found
    have entry := Entries.mem_of_get? found
    simp only [List.mem_cons, Prod.mk.injEq, List.not_mem_nil, or_false] at entry
    rcases entry with ⟨-, kind⟩ | ⟨-, kind⟩ <;> exact kind
  refine ⟨embedded, ofNode_ofTable_eq_unknown embedded nestedTree, ?_⟩
  intro same
  have text := congrArg (Except.map Compiled.sql) same
  revert text
  decide +kernel

end Sql

end DataFilter
