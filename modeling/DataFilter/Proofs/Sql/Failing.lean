import DataFilter.Proofs.Outcome
import DataFilter.Proofs.Sql.Reading
import DataFilter.Proofs.Template.Grounded

/-!
# How compiling a template can fail

A grounded tree gives compiling nothing to refuse: its chains end at a root, its names are
identifiers, and the element under test is referred to where there is one. What is left are the names
of the schema, which nobody has checked before. So the only failure is that a name of the schema may
not stand in SQL, and without a schema there is none.
-/

namespace DataFilter

/-! ## Names of a schema -/

/-- The names that a table has for the rows of its collections. -/
def TableSchema.stems (table : TableSchema) : List String :=
  table.collections.flatMap fun entry =>
    match entry.2 with
    | .embedded => []
    | .relational relation => relation.shortName.toList

def Schema.stems (schema : Schema) : List String :=
  schema.tables.flatMap fun entry => entry.2.stems

namespace Sql

/-- What a schema is refused for: one of its names may not stand in SQL. -/
def RefusesName (schema : Schema) (e : CompileError) : Prop :=
  ∃ name ∈ schema.names ++ schema.stems, isIdentifier name = false ∧ e = .invalidIdentifier name

/-- A name is fine, or else it is one of the schema. -/
def IsAccounted (schema : Schema) (name : String) : Prop :=
  isIdentifier name = true ∨ name ∈ schema.names ++ schema.stems

section Relation

variable {schema : Schema} {known : TableSchema} {tableName field : String} {relation : Relation}

theorem isAccounted_of_mem_names (found : schema.table? tableName = some known)
    (stored : known.mapping? field = some (.relational relation)) {name : String}
    (h : name ∈ relation.names) : IsAccounted schema name := by
  have ofTable : name ∈ known.names := TableSchema.names_subset_of_mapping? stored h
  have ofSchema : name ∈ schema.names := Schema.names_subset_of_table? found ofTable
  exact .inr (List.mem_append_left _ ofSchema)

theorem isAccounted_of_mem_shortName (found : schema.table? tableName = some known)
    (stored : known.mapping? field = some (.relational relation)) {name : String}
    (h : name ∈ relation.shortName.toList) : IsAccounted schema name := by
  have ofTable : name ∈ known.stems :=
    List.mem_flatMap.mpr ⟨_, Entries.mem_of_get? stored, h⟩
  have ofSchema : name ∈ schema.stems :=
    List.mem_flatMap.mpr ⟨_, Entries.mem_of_get? found, ofTable⟩
  exact .inr (List.mem_append_right _ ofSchema)

end Relation

/-! ## Rows and their surroundings -/

/-- The name of the row is accounted for, and its table is one of the schema. -/
structure Row.IsFrom (schema : Schema) (row : Row) : Prop where
  name : ∀ name ∈ row.name, IsAccounted schema name
  table : ∀ table ∈ row.table, ∃ name, schema.table? name = some table

/-- All rows come from the schema, and inside of a test there is one under test. -/
structure Surroundings.IsSound (around : Surroundings) (inTest : Bool) : Prop where
  document : around.document.IsFrom around.schema
  element : ∀ row ∈ around.element, row.IsFrom around.schema
  present : inTest = true → ∃ row, around.element = some row

theorem Surroundings.IsOutermost.isSound {around : Surroundings} (h : around.IsOutermost) :
    around.IsSound false := by
  cases h with
  | unknown => exact ⟨⟨nofun, nofun⟩, nofun, nofun⟩
  | ofTable schema table =>
      refine ⟨⟨?_, ?_⟩, nofun, nofun⟩
      · intro name hname
        obtain ⟨known, found, rfl⟩ := Option.map_eq_some_iff.mp hname
        have ofSchema := Schema.names_subset_of_table? found List.mem_cons_self
        exact .inr (List.mem_append_left _ ofSchema)
      · intro known found
        exact ⟨table, found⟩

theorem Surroundings.IsSound.owner {around : Surroundings} {inTest : Bool}
    (sound : around.IsSound inTest) {parent : Node} {owner : Row}
    (owned : around.owner? parent = some owner) : owner.IsFrom around.schema := by
  unfold Surroundings.owner? at owned
  split at owned
  · exact sound.element owner owned
  · cases owned
    exact sound.document

/-- Inside of a test, the rows come from the schema as well. -/
theorem Surroundings.IsSound.inside {around : Surroundings} {inTest : Bool}
    (sound : around.IsSound inTest) {scope : Node} {name : String} {number : Nat} {source : Source}
    {rowName : String} {row : Row}
    (h : Ranges around (.object scope name) name number source rowName row) :
    (around.inside row).IsSound true := by
  refine ⟨sound.document, ?_, fun _ => ⟨row, rfl⟩⟩
  rintro inner ⟨⟩
  obtain ⟨named, plain⟩ := h.isPlain
  refine ⟨?_, ?_⟩
  · intro part hpart
    rw [named] at hpart
    cases hpart
    exact .inl plain.1
  · cases h with
    | elements => exact nofun
    | rows => exact fun table found => ⟨_, found⟩

/-! ## Steps -/

section Steps

variable {α β : Type} {kind : CompileError → Prop} {out : Output}

theorem Step.onlyFails_bind {x : Step α} {f : α → Step β} (first : OnlyFails kind (x out))
    (behind : ∀ a middle, x out = .ok (a, middle) → OnlyFails kind (f a middle)) :
    OnlyFails kind ((x >>= f) out) :=
  OnlyFails.bind first fun result h => behind result.1 result.2 h

theorem Step.onlyFails_forM {step : α → Step Unit} {list : List α}
    (h : ∀ a ∈ list, ∀ out, OnlyFails kind (step a out)) : OnlyFails kind (list.forM step out) := by
  induction list generalizing out with
  | nil => exact onlyFails_ok _
  | cons a list ih =>
      obtain ⟨first, others⟩ := List.forall_mem_cons.mp h
      exact Step.onlyFails_bind (first out) fun _ _ _ => ih others

theorem Step.onlyFails_mapM {step : α → Step β} {list : List α}
    (h : ∀ a ∈ list, ∀ out, OnlyFails kind (step a out)) : OnlyFails kind (list.mapM step out) := by
  induction list generalizing out with
  | nil => exact onlyFails_ok _
  | cons a list ih =>
      obtain ⟨first, others⟩ := List.forall_mem_cons.mp h
      rw [List.mapM_cons]
      refine Step.onlyFails_bind (first out) fun _ _ _ => ?_
      exact Step.onlyFails_bind (ih others) fun _ _ _ => onlyFails_ok _

theorem onlyFails_checkIdentifier {schema : Schema} {name : String} (h : IsAccounted schema name) :
    OnlyFails (RefusesName schema) (checkIdentifier name out) := by
  unfold checkIdentifier
  by_cases valid : isIdentifier name = true
  · rw [if_pos valid]
    exact onlyFails_ok _
  · rw [if_neg valid]
    have unknown := h.resolve_left valid
    exact onlyFails_error ⟨name, unknown, Bool.not_eq_true _ ▸ valid, rfl⟩

end Steps

/-! ## Grounded chains -/

section Chain

variable {inTest : Bool} {scope : Node}

theorem isIdentifier_path (path : IsScopePath inTest scope) :
    ∀ name ∈ scope.path, isIdentifier name = true := by
  induction path with
  | document => exact nofun
  | element => exact nofun
  | object _ identifier ih =>
      intro name hname
      rcases List.mem_append.mp hname with inner | last
      · exact ih name inner
      · rw [List.mem_singleton.mp last]
        exact identifier.1

/-- A chain ends at a root, and at the element inside of a test only. -/
theorem root?_of_isScopePath (path : IsScopePath inTest scope) :
    ∃ root, scope.root? = some root ∧ (root = .element → inTest = true) := by
  induction path with
  | document => exact ⟨.document, rfl, nofun⟩
  | element inside => exact ⟨.element, rfl, fun _ => inside⟩
  | object _ _ ih => exact ih

end Chain

namespace Surroundings

variable {around : Surroundings} {inTest : Bool} {scope : Node} {out : Output}

theorem onlyFails_base (sound : around.IsSound inTest) (path : IsScopePath inTest scope) :
    OnlyFails (RefusesName around.schema) (around.base scope out) := by
  obtain ⟨root, anchored, inside⟩ := root?_of_isScopePath path
  unfold base
  rw [anchored]
  cases root with
  | document => exact onlyFails_ok _
  | element =>
      obtain ⟨row, hrow⟩ := sound.present (inside rfl)
      rw [hrow]
      exact onlyFails_ok _

theorem onlyFails_reference (sound : around.IsSound inTest) (path : IsScopePath inTest scope)
    {name : Option String} (named : ∀ part ∈ name, isIdentifier part = true) :
    OnlyFails (RefusesName around.schema) (around.reference scope name out) := by
  refine Step.onlyFails_bind (onlyFails_base sound path) fun base middle _ => ?_
  refine Step.onlyFails_bind (Step.onlyFails_forM fun part hpart _ => ?_) fun _ _ _ =>
    onlyFails_ok _
  apply onlyFails_checkIdentifier
  rcases List.mem_append.mp hpart with inner | last
  · exact .inl (isIdentifier_path path part inner)
  · exact .inl (named part (Option.mem_toList.mp last))

theorem onlyFails_owner (sound : around.IsSound inTest) (path : IsScopePath inTest scope) :
    OnlyFails (RefusesName around.schema) (around.owner scope out) := by
  obtain ⟨root, anchored, inside⟩ := root?_of_isScopePath path
  unfold owner
  rw [anchored]
  cases root with
  | document => exact onlyFails_ok _
  | element =>
      obtain ⟨row, hrow⟩ := sound.present (inside rfl)
      rw [hrow]
      exact onlyFails_ok _

theorem onlyFails_joins {schema : Schema} {relation : Relation} {owner : Row} {name : String}
    (reference : IsAccounted schema (owner.name.getD name))
    (keys : ∀ part ∈ relation.names, IsAccounted schema part) :
    OnlyFails (RefusesName schema) (joins relation owner name out) := by
  unfold joins
  split
  · exact onlyFails_ok _
  · refine Step.onlyFails_bind (onlyFails_checkIdentifier reference) fun _ middle _ => ?_
    refine Step.onlyFails_mapM fun key hkey _ => ?_
    have columns : ∀ part ∈ [key.child, key.parent], IsAccounted schema part := fun part hpart =>
      keys part (List.mem_cons_of_mem _ (List.mem_flatMap.mpr ⟨key, hkey, hpart⟩))
    have child : IsAccounted schema key.child := columns key.child (by simp)
    have parent : IsAccounted schema key.parent := columns key.parent (by simp)
    refine Step.onlyFails_bind (onlyFails_checkIdentifier child) fun _ _ _ => ?_
    exact Step.onlyFails_bind (onlyFails_checkIdentifier parent) fun _ _ _ => onlyFails_ok _

/-- What a test ranges over is refused for a name of the schema only. -/
theorem onlyFails_collection (sound : around.IsSound inTest) {name : String}
    (path : IsScopePath inTest (.object scope name)) :
    OnlyFails (RefusesName around.schema) (around.collection (.object scope name) name out) := by
  have named : isIdentifier name = true :=
    isIdentifier_path path name (List.mem_append_right _ List.mem_cons_self)
  refine Step.onlyFails_bind (onlyFails_owner sound path) fun owner middle howner => ?_
  have fromSchema := sound.owner (owner_eq_ok howner).1
  -- not to be mapped and to be mapped to the row itself come to the same
  have embedded (after : Output) : OnlyFails (RefusesName around.schema) ((do
      let array ← around.reference (.object scope name) none
      let rowName ← freshAlias (singularize name)
      return (.elements array, rowName, ⟨some rowName, none⟩) :
        Step (Source × String × Row)) after) := by
    refine Step.onlyFails_bind (onlyFails_reference sound path nofun) fun _ _ _ => ?_
    exact Step.onlyFails_bind (onlyFails_ok _) fun _ _ _ => onlyFails_ok _
  cases stored : owner.table.bind (·.mapping? name) with
  | none => exact embedded middle
  | some mapping =>
      cases mapping with
      | embedded => exact embedded middle
      | relational relation =>
          obtain ⟨known, hknown, hmapping⟩ := Option.bind_eq_some_iff.mp stored
          obtain ⟨tableName, found⟩ := fromSchema.table known hknown
          have names : ∀ part ∈ relation.names, IsAccounted around.schema part := fun _ hpart =>
            isAccounted_of_mem_names found hmapping hpart
          have stem : IsAccounted around.schema (relation.shortName.getD (singularize name)) := by
            cases short : relation.shortName with
            | none => exact .inl (isIdentifier_singularize named)
            | some stem =>
                apply isAccounted_of_mem_shortName found hmapping
                rw [short]
                exact List.mem_singleton.mpr rfl
          have reference : IsAccounted around.schema (owner.name.getD name) := by
            cases hname : owner.name with
            | none => exact .inl named
            | some reference => exact fromSchema.name reference hname
          -- the checks in their order: the table, the stem of the alias, and the joins
          refine Step.onlyFails_bind (onlyFails_checkIdentifier (names _ List.mem_cons_self))
            fun _ _ _ => ?_
          refine Step.onlyFails_bind (onlyFails_checkIdentifier stem) fun _ _ _ => ?_
          refine Step.onlyFails_bind (onlyFails_ok _) fun _ _ _ => ?_
          exact Step.onlyFails_bind (onlyFails_joins reference names) fun _ _ _ => onlyFails_ok _

end Surroundings

/-! ## Trees -/

/-- A grounded tree without placeholders is refused for a name of the schema only. -/
theorem onlyFails_compile {tree : Node} {inTest : Bool} (grounded : tree.IsGrounded inTest)
    (bound : tree.hasPlaceholders = false) {around : Surroundings} (sound : around.IsSound inTest)
    (out : Output) : OnlyFails (RefusesName around.schema) (compile around tree out) := by
  -- inside of a test the surroundings are others, but they come from the same schema
  induction tree generalizing inTest around out with
  | value operand =>
      cases operand with
      | literal v => exact onlyFails_ok _
      | placeholder p => cases bound
  | globalScope => cases grounded
  | item => cases grounded
  | object parent name => cases grounded
  | field scope name _ =>
      obtain ⟨path, identifier⟩ := grounded
      have named : ∀ part ∈ some name, isIdentifier part = true := by
        rintro part ⟨⟩
        exact identifier.1
      exact Step.onlyFails_bind (Surroundings.onlyFails_reference sound path named)
        fun _ _ _ => onlyFails_ok _
  | collection parent predicate _ ih =>
      obtain ⟨path, named, inner⟩ := grounded
      cases parent with
      | object scope name =>
          refine Step.onlyFails_bind (Surroundings.onlyFails_collection sound path)
            fun test middle htest => ?_
          have ranges := (Surroundings.collection_eq_ok htest).1
          refine Step.onlyFails_bind ?_ fun _ _ _ => onlyFails_ok _
          exact ih inner (Bool.or_eq_false_iff.mp bound).2 (sound.inside ranges) middle
      | globalScope => cases named
      | item => cases named
      | _ => cases path
  | prefixed op operand grouping ih =>
      exact Step.onlyFails_bind (ih grounded bound sound out) fun _ _ _ => onlyFails_ok _
  | infixed left op right grouping ihl ihr =>
      obtain ⟨boundLeft, boundRight⟩ := Bool.or_eq_false_iff.mp bound
      refine Step.onlyFails_bind (ihl grounded.1 boundLeft sound out) fun _ middle _ => ?_
      exact Step.onlyFails_bind (ihr grounded.2 boundRight sound middle)
        fun _ _ _ => onlyFails_ok _
  | postfixed operand op grouping ih =>
      exact Step.onlyFails_bind (ih grounded bound sound out) fun _ _ _ => onlyFails_ok _

theorem onlyFails_ofNode {tree : Node} (grounded : tree.IsGrounded false)
    (bound : tree.hasPlaceholders = false) {around : Surroundings}
    (outermost : around.IsOutermost) :
    OnlyFails (RefusesName around.schema) (ofNode around tree) :=
  (onlyFails_compile grounded bound outermost.isSound ⟨[], 0⟩).bind fun _ _ => onlyFails_ok _

/-- Without a schema there is nothing to refuse. -/
theorem ofNode_unknown_eq_ok {tree : Node} (grounded : tree.IsGrounded false)
    (bound : tree.hasPlaceholders = false) :
    ∃ compiled, ofNode .unknown tree = .ok compiled := by
  cases h : ofNode .unknown tree with
  | ok compiled => exact ⟨compiled, rfl⟩
  | error e =>
      obtain ⟨name, hname, -⟩ := onlyFails_ofNode grounded bound .unknown e h
      exact absurd hname List.not_mem_nil

end Sql

end DataFilter
