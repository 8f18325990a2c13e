import DataFilter.Proofs.Sql.Alias
import DataFilter.Proofs.Sql.Parentheses

/-!
# Reading compiled conditions back

Whoever reads the SQL of a tree finds the tree: `Reflects` says that a phrase has the operators of a
tree in their places, with the values of the tree as parameters and its references as columns of the
rows that they belong to. All that is asked of the tree is that its operators stand where they can
be written, and that no name of the tree or of the schema is a word of SQL.
-/

namespace DataFilter

/-! ## Names and operators -/

/-- All names of a tree. -/
def Node.names : Node → List String
  | value _ | globalScope | item => []
  | object parent name => parent.names ++ [name]
  | field scope name => scope.names ++ [name]
  | collection parent predicate => parent.names ++ predicate.names
  | prefixed _ operand _ => operand.names
  | infixed left _ right _ => left.names ++ right.names
  | postfixed operand _ _ => operand.names

/-- Every operator stands in its position, with the grouping that building the tree gives it. -/
def Node.IsBuilt : Node → Prop
  | value _ | globalScope | item => True
  | object parent _ => parent.IsBuilt
  | field scope _ => scope.IsBuilt
  | collection parent predicate => parent.IsBuilt ∧ predicate.IsBuilt
  | prefixed op operand grouping =>
    op.position = .before ∧ grouping = op.associativity ∧ operand.IsBuilt
  | infixed left op right grouping =>
    op.position = .between ∧ grouping = op.associativity ∧ left.IsBuilt ∧ right.IsBuilt
  | postfixed operand op grouping => op.position = .after ∧ grouping = .left ∧ operand.IsBuilt

/-- The names that a relation puts into SQL, besides the name of the collection. -/
def Relation.names (relation : Relation) : List String :=
  relation.table :: relation.keys.flatMap fun key => [key.child, key.parent]

/-- The names that a table puts into SQL: its own, and those of its collections. -/
def TableSchema.names (table : TableSchema) : List String :=
  table.reference :: table.collections.flatMap fun entry =>
    match entry.2 with
    | .embedded => []
    | .relational relation => relation.names

def Schema.names (schema : Schema) : List String :=
  schema.tables.flatMap fun entry => entry.2.names

theorem Node.mem_names_of_mem_path {node : Node} {name : String} (h : name ∈ node.path) :
    name ∈ node.names := by
  induction node with
  | object parent last ih =>
      rcases List.mem_append.mp h with inner | outer
      · exact List.mem_append_left _ (ih inner)
      · exact List.mem_append_right _ outer
  | field scope last ih =>
      rcases List.mem_append.mp h with inner | outer
      · exact List.mem_append_left _ (ih inner)
      · exact List.mem_append_right _ outer
  | collection parent predicate ih _ => exact List.mem_append_left _ (ih h)
  | _ => cases h

theorem TableSchema.names_subset_of_mapping? {table : TableSchema} {field : String}
    {relation : Relation} (h : table.mapping? field = some (.relational relation)) :
    relation.names ⊆ table.names := by
  obtain ⟨front, back, heq, -⟩ := List.lookup_eq_some_iff.mp h
  intro name hname
  have hmem : (field, CollectionMapping.relational relation) ∈ table.collections :=
    heq ▸ List.mem_append_right _ List.mem_cons_self
  exact List.mem_cons_of_mem _ (List.mem_flatMap.mpr ⟨_, hmem, hname⟩)

theorem Schema.names_subset_of_table? {schema : Schema} {name : String} {table : TableSchema}
    (h : schema.table? name = some table) : table.names ⊆ schema.names := by
  intro part hpart
  exact List.mem_flatMap.mpr ⟨_, Entries.mem_of_get? h, hpart⟩

namespace Sql

/-- Whether a name is a word of SQL, in whatever case it is written. -/
def IsKeyword (name : String) : Prop := keyword? name.toList ≠ none

instance (name : String) : Decidable (IsKeyword name) := inferInstanceAs (Decidable (_ ≠ _))

theorem isPlain_of_isIdentifier {name : String} (valid : isIdentifier name = true)
    (free : ¬IsKeyword name) : IsPlain name := ⟨valid, not_not.mp free⟩

/-! ## Surroundings without keywords -/

/-- No name of a row or of its table is a word of SQL. -/
structure Row.IsFree (row : Row) : Prop where
  name : ∀ name ∈ row.name, ¬IsKeyword name
  table : ∀ table ∈ row.table, ∀ name ∈ table.names, ¬IsKeyword name

/-- No name that a tree can get from its surroundings is a word of SQL, and the row under test has a
name that can be written. -/
structure Surroundings.IsFree (around : Surroundings) : Prop where
  schema : ∀ name ∈ around.schema.names, ¬IsKeyword name
  document : around.document.IsFree
  element : ∀ row ∈ around.element, row.IsFree ∧ ∀ name ∈ row.name, isIdentifier name = true

/-- The surroundings of whole conditions: a table of which nothing is known, or one of a schema. -/
inductive Surroundings.IsOutermost : Surroundings → Prop where
  | unknown : IsOutermost .unknown
  | ofTable (schema : Schema) (table : String) : IsOutermost (.ofTable schema table)

theorem Surroundings.IsOutermost.isFree {around : Surroundings} (h : around.IsOutermost)
    (free : ∀ name ∈ around.schema.names, ¬IsKeyword name) : around.IsFree := by
  cases h with
  | unknown => exact ⟨free, ⟨nofun, nofun⟩, nofun⟩
  | ofTable schema table =>
      have tableFree (known : TableSchema) (hknown : schema.table? table = some known) :
          ∀ name ∈ known.names, ¬IsKeyword name :=
        fun name hname => free name (Schema.names_subset_of_table? hknown hname)
      refine ⟨free, ⟨?_, tableFree⟩, nofun⟩
      intro name hname
      obtain ⟨known, hknown, rfl⟩ := Option.map_eq_some_iff.mp hname
      exact tableFree known hknown _ List.mem_cons_self

theorem Surroundings.IsFree.owner {around : Surroundings} (h : around.IsFree) {parent : Node}
    {owner : Row} (owned : around.owner? parent = some owner) : owner.IsFree := by
  unfold Surroundings.owner? at owned
  split at owned
  · exact (h.element owner owned).1
  · cases owned
    exact h.document

section Ranges

variable {around : Surroundings} {scope : Node} {name : String} {number : Nat} {source : Source}
  {rowName : String} {row : Row}

/-- The rows of a test have a name that is no word of SQL. -/
theorem Ranges.isPlain (h : Ranges around (.object scope name) name number source rowName row) :
    row.name = some rowName ∧ IsPlain rowName := by
  cases h with
  | elements _ _ _ _ valid =>
      have named : isIdentifier name = true :=
        valid name (List.mem_append_right _ List.mem_cons_self)
      exact ⟨rfl, isPlain_aliasOf (isIdentifier_singularize named) number⟩
  | rows _ _ _ stem _ => exact ⟨rfl, isPlain_aliasOf stem number⟩

theorem Ranges.inside_isFree
    (h : Ranges around (.object scope name) name number source rowName row)
    (free : around.IsFree) : (around.inside row).IsFree := by
  obtain ⟨named, plain⟩ := h.isPlain
  refine ⟨free.schema, free.document, fun inner heq => ?_⟩
  cases heq
  rw [named]
  refine ⟨⟨?_, ?_⟩, ?_⟩
  · rintro name hname
    rw [named] at hname
    cases hname
    exact fun keyword => keyword plain.2
  · cases h with
    | elements => exact nofun
    | rows =>
        intro table found part hpart
        exact free.schema part (Schema.names_subset_of_table? found hpart)
  · rintro name hname
    cases hname
    exact plain.1

/-- What is known of the names that references begin with. -/
theorem Surroundings.IsFree.base (free : around.IsFree) {root : Root} {base : List String}
    (found : around.base? root = some base) : ∀ part ∈ base, IsPlain part := by
  cases root with
  | document =>
      cases found
      exact nofun
  | element =>
      obtain ⟨row, hrow, rfl⟩ := Option.map_eq_some_iff.mp found
      obtain ⟨rowFree, valid⟩ := free.element row hrow
      intro part hpart
      rw [Option.mem_toList] at hpart
      exact isPlain_of_isIdentifier (valid part hpart) (rowFree.name part hpart)

/-- A reference to plain names is plain. -/
theorem Surroundings.IsFree.reference (free : around.IsFree) {root : Root}
    {base path : List String} (found : around.base? root = some base)
    (valid : ∀ part ∈ path, isIdentifier part = true) (words : ∀ part ∈ path, ¬IsKeyword part) :
    ∀ part ∈ base ++ path, IsPlain part := by
  intro part hpart
  rcases List.mem_append.mp hpart with hbase | hpath
  · exact free.base found part hbase
  · exact isPlain_of_isIdentifier (valid part hpath) (words part hpath)

theorem Ranges.source_isPlain
    (h : Ranges around (.object scope name) name number source rowName row)
    (free : around.IsFree) (words : ∀ part ∈ (Node.object scope name).names, ¬IsKeyword part) :
    source.IsPlain := by
  cases h with
  | elements owned stored anchored found valid =>
      refine ⟨by simp [Node.path], free.reference found valid fun part hpart => ?_⟩
      exact words part (Node.mem_names_of_mem_path hpart)
  | @rows owner relation owned stored table stem valid =>
      obtain ⟨known, hknown, hmapping⟩ := Option.bind_eq_some_iff.mp stored
      have relationFree : ∀ part ∈ relation.names, ¬IsKeyword part := fun part hpart =>
        (free.owner owned).table known hknown part
          (TableSchema.names_subset_of_mapping? hmapping hpart)
      refine ⟨isPlain_of_isIdentifier table (relationFree _ List.mem_cons_self), ?_⟩
      intro join hjoin
      obtain ⟨child, reference, parent⟩ := valid join hjoin
      obtain ⟨key, hkey, rfl⟩ := List.mem_map.mp hjoin
      have keyFree : ∀ part ∈ [key.child, key.parent], ¬IsKeyword part := fun part hpart =>
        relationFree part (List.mem_cons_of_mem _ (List.mem_flatMap.mpr ⟨key, hkey, hpart⟩))
      refine ⟨isPlain_of_isIdentifier child (keyFree _ (by simp)),
        isPlain_of_isIdentifier reference ?_, isPlain_of_isIdentifier parent (keyFree _ (by simp))⟩
      show ¬IsKeyword (owner.name.getD name)
      cases hname : owner.name with
      | none => exact words name (List.mem_append_right _ List.mem_cons_self)
      | some reference => exact (free.owner owned).name reference hname

end Ranges

/-- The condition of a tree that is built from plain names can be read. -/
theorem Compiles.isReadable {around : Surroundings} {tree : Node} {out after : Output}
    {condition : Condition} (h : Compiles around tree out condition after) (free : around.IsFree)
    (built : tree.IsBuilt) (words : ∀ name ∈ tree.names, ¬IsKeyword name) :
    condition.IsReadable := by
  induction h with
  | literal => trivial
  | @field around scope name root base anchored found valid out =>
      refine ⟨by simp, free.reference found valid fun part hpart => ?_⟩
      have named : part ∈ (Node.field scope name).names := Node.mem_names_of_mem_path hpart
      exact words part named
  | @collection _ scope _ name _ _ _ _ _ _ ranges _ ih =>
      have outer : ∀ part ∈ (Node.object scope name).names, ¬IsKeyword part := fun part hpart =>
        words part (List.mem_append_left _ hpart)
      refine ⟨ranges.source_isPlain free outer, ranges.isPlain.2, ?_⟩
      exact ih (ranges.inside_isFree free) built.2 fun part hpart =>
        words part (List.mem_append_right _ hpart)
  | prefixed _ ih => exact ⟨built.1, built.2.1, ih free built.2.2 words⟩
  | infixed _ _ ihl ihr =>
      obtain ⟨between, grouped, left, right⟩ := built
      refine ⟨between, grouped, ihl free left fun part hpart => ?_,
        ihr free right fun part hpart => ?_⟩
      · exact words part (List.mem_append_left _ hpart)
      · exact words part (List.mem_append_right _ hpart)
  | postfixed _ ih => exact ⟨built.1, built.2.1, ih free built.2.2 words⟩

/-! ## The phrase of a tree -/

/-- The phrase has the operators of the tree in their places. A literal is the parameter with its
number, a reference is a column of the row that it belongs to, and a collection test ranges over the
array, or else over the related rows: there the joins come first, in the order of the keys, and the
parts of the predicate after them, however the conjunctions are grouped. -/
inductive Reflects (parameters : List Value) : Surroundings → Node → Phrase → Prop where
  | literal {around : Surroundings} {v : Value} {index : Nat}
      (passed : parameters[index]? = some v) :
      Reflects parameters around (.value (.literal v)) (.parameter (index + 1))
  | field {around : Surroundings} {scope : Node} {name : String} {root : Root} {base : List String}
      (anchored : scope.root? = some root) (found : around.base? root = some base) :
      Reflects parameters around (.field scope name) (.column (base ++ (scope.path ++ [name])))
  | elements {around : Surroundings} {scope predicate : Node} {name rowName : String} {owner : Row}
      {root : Root} {base : List String} {p : Phrase}
      (owned : around.owner? (.object scope name) = some owner)
      (stored : ∀ relation, owner.table.bind (·.mapping? name) ≠ some (.relational relation))
      (anchored : scope.root? = some root) (found : around.base? root = some base)
      (test : Reflects parameters (around.inside ⟨some rowName, none⟩) predicate p) :
      Reflects parameters around (.collection (.object scope name) predicate)
        (.exists (.elements (base ++ (scope.path ++ [name]))) rowName p)
  | rows {around : Surroundings} {scope predicate : Node} {name rowName : String} {owner : Row}
      {relation : Relation} {p whole : Phrase}
      (owned : around.owner? (.object scope name) = some owner)
      (stored : owner.table.bind (·.mapping? name) = some (.relational relation))
      (test : Reflects parameters
        (around.inside ⟨some rowName, around.schema.table? relation.table⟩) predicate p)
      (joined : whole.conjuncts =
        (Surroundings.joinsTo relation owner name).map (·.phrase rowName) ++ p.conjuncts) :
      Reflects parameters around (.collection (.object scope name) predicate)
        (.exists (.table relation.table) rowName whole)
  | prefixed {around : Surroundings} {op : Operator} {operand : Node} {grouping : Associativity}
      {p : Phrase} (inner : Reflects parameters around operand p) :
      Reflects parameters around (.prefixed op operand grouping) (.prefixed op p)
  | infixed {around : Surroundings} {left right : Node} {op : Operator} {grouping : Associativity}
      {p q : Phrase} (first : Reflects parameters around left p)
      (second : Reflects parameters around right q) :
      Reflects parameters around (.infixed left op right grouping) (.infixed p op q)
  | postfixed {around : Surroundings} {op : Operator} {operand : Node} {grouping : Associativity}
      {p : Phrase} (inner : Reflects parameters around operand p) :
      Reflects parameters around (.postfixed operand op grouping) (.postfixed p op)

/-- Writing only adds parameters behind those that are there. -/
theorem Compiles.parameters_isPrefix {around : Surroundings} {tree : Node} {out after : Output}
    {condition : Condition} (h : Compiles around tree out condition after) :
    out.parameters <+: after.parameters := by
  induction h with
  | literal v out => exact List.prefix_append _ _
  | field => exact List.prefix_rfl
  | collection _ _ ih => exact ih
  | prefixed _ ih => exact ih
  | infixed _ _ ihl ihr => exact ihl.trans ihr
  | postfixed _ ih => exact ih

/-- The condition of a tree is meant to be read as the tree. -/
theorem Compiles.reflects {around : Surroundings} {tree : Node} {out after : Output}
    {condition : Condition} (h : Compiles around tree out condition after) {parameters : List Value}
    (passed : after.parameters <+: parameters) :
    Reflects parameters around tree condition.phrase := by
  induction h with
  | literal v out =>
      refine .literal ?_
      obtain ⟨others, rfl⟩ := passed
      simp
  | field anchored found _ _ => exact .field anchored found
  | @collection around scope predicate name out after source rowName row condition ranges _ ih =>
      have inner := ih passed
      cases ranges with
      | elements owned stored anchored found _ => exact .elements owned stored anchored found inner
      | rows owned stored _ _ _ =>
          exact .rows owned stored inner (Source.conjuncts_wherePhrase _ _ _ _)
  | prefixed _ ih => exact .prefixed (ih passed)
  | infixed _ second ihl ihr =>
      exact .infixed (ihl (second.parameters_isPrefix.trans passed)) (ihr passed)
  | postfixed _ ih => exact .postfixed (ih passed)

/-- The parentheses of compiled SQL are sufficient: whatever tree is compiled, the text is read as
the tree, with the same operands in the same places. Of the tree nothing is asked but that its
operators are where building puts them, and of all names that they are no words of SQL. -/
theorem read_ofNode {around : Surroundings} (outermost : around.IsOutermost) {tree : Node}
    (built : tree.IsBuilt)
    (words : ∀ name ∈ tree.names ++ around.schema.names, ¬IsKeyword name) {compiled : Compiled}
    (h : ofNode around tree = .ok compiled) :
    ∃ phrase, read compiled.sql = some phrase ∧
      Reflects compiled.parameters around tree phrase := by
  unfold ofNode at h
  cases hrun : (compile around tree).run ⟨[], 0⟩ with
  | error e =>
      rw [hrun] at h
      cases h
  | ok result =>
      rw [hrun] at h
      cases h
      have compiles := compiles_of_compile hrun
      have free : around.IsFree := outermost.isFree fun name hname =>
        words name (List.mem_append_right _ hname)
      have readable := compiles.isReadable free built fun name hname =>
        words name (List.mem_append_left _ hname)
      exact ⟨_, read_render readable, compiles.reflects List.prefix_rfl⟩

/-- Stores, and items that belong to them. -/
def sampleSchema : Schema :=
  .ofTables [⟨"stores", some "s", [("Items", .relational ⟨"items", [⟨"store_id", "id"⟩], none⟩)]⟩]

/-- `!$.open || $.Items[?(@.name == "x" || @.name == null)]` -/
def sampleTree : Node :=
  .between (.not (.field .globalScope "open")) .or
    (.collection (.object .globalScope "Items")
      (.between (.between (.field .item "name") .equal (.literal (.text "x"))) .or
        (.isNull (.field .item "name"))))

/-- The `OR` of the predicate does not escape the join, and `NOT` stays with its operand. -/
theorem read_sampleTree : ∃ compiled,
    ofNode (.ofTable sampleSchema "stores") sampleTree = .ok compiled ∧
      compiled.sql = "NOT open OR EXISTS (SELECT 1 FROM items AS item_1 " ++
        "WHERE item_1.store_id = s.id AND (item_1.name = $1 OR item_1.name IS NULL))" ∧
      ∃ phrase, read compiled.sql = some phrase ∧
        Reflects compiled.parameters (.ofTable sampleSchema "stores") sampleTree phrase := by
  have built : sampleTree.IsBuilt := by
    have test : ((Node.field .item "name").isNull).IsBuilt := ⟨rfl, rfl, trivial⟩
    exact ⟨rfl, rfl, ⟨rfl, rfl, trivial⟩, trivial, rfl, rfl, ⟨rfl, rfl, trivial, trivial⟩, test⟩
  have words : ∀ name ∈ sampleTree.names ++ sampleSchema.names, ¬IsKeyword name := by decide
  refine ⟨_, rfl, by decide +kernel, ?_⟩
  exact read_ofNode (.ofTable sampleSchema "stores") built words rfl

end Sql

end DataFilter
