import DataFilter.Proofs.Outcome
import DataFilter.Sql.Compile

/-!
# Compiling, step by step

`Compiles` says how the condition of a tree is made of those of its parts, one constructor for each
kind of node that has a condition. All that is proved of compiled conditions is proved by induction
on it; that compiling follows it is proved once, in `compiles_of_compile`.
-/

namespace DataFilter.Sql

/-! ## Steps that succeed -/

namespace Step

variable {α β : Type} {x : Step α} {f : α → Step β} {out after : Output}

theorem bind_eq_ok {b : β} (h : (x >>= f) out = .ok (b, after)) :
    ∃ a middle, x out = .ok (a, middle) ∧ f a middle = .ok (b, after) := by
  change Except.bind (x out) (fun r => f r.1 r.2) = _ at h
  cases hx : x out with
  | error e => rw [hx] at h; cases h
  | ok r =>
      rw [hx] at h
      exact ⟨r.1, r.2, rfl, h⟩

theorem pure_eq_ok {a b : α} (h : (pure a : Step α) out = .ok (b, after)) :
    b = a ∧ after = out := by
  cases h
  exact ⟨rfl, rfl⟩

end Step

theorem checkIdentifier_eq_ok {name : String} {out after : Output} {u : Unit}
    (h : checkIdentifier name out = .ok (u, after)) : isIdentifier name = true ∧ after = out := by
  unfold checkIdentifier at h
  split at h
  · rename_i valid
    exact ⟨valid, (Step.pure_eq_ok h).2⟩
  · cases h

theorem forM_checkIdentifier_eq_ok {names : List String} {out after : Output} {u : Unit}
    (h : (names.forM checkIdentifier) out = .ok (u, after)) :
    (∀ name ∈ names, isIdentifier name = true) ∧ after = out := by
  induction names generalizing out with
  | nil => exact ⟨nofun, (Step.pure_eq_ok h).2⟩
  | cons name names ih =>
      obtain ⟨_, middle, first, others⟩ := Step.bind_eq_ok h
      obtain ⟨valid, rfl⟩ := checkIdentifier_eq_ok first
      obtain ⟨all, rfl⟩ := ih others
      exact ⟨List.forall_mem_cons.mpr ⟨valid, all⟩, rfl⟩

/-! ## References -/

namespace Surroundings

/-- What names begin with behind a root. -/
def base? (around : Surroundings) : Root → Option (List String)
  | .document => some []
  | .element => around.element.map (·.name.toList)

/-- The row that owns the collections of a scope. -/
def owner? (around : Surroundings) (parent : Node) : Option Row :=
  if parent.root? = some .element then around.element else some around.document

/-- The surroundings of the condition on the rows of a test. -/
def inside (around : Surroundings) (row : Row) : Surroundings := { around with element := some row }

theorem base_eq_ok {around : Surroundings} {scope : Node} {out after : Output} {names : List String}
    (h : around.base scope out = .ok (names, after)) :
    (∃ root, scope.root? = some root ∧ around.base? root = some names) ∧ after = out := by
  unfold base at h
  cases hroot : scope.root? with
  | none => rw [hroot] at h; cases h
  | some root =>
      rw [hroot] at h
      cases root with
      | document =>
          obtain ⟨rfl, rfl⟩ := Step.pure_eq_ok h
          exact ⟨⟨.document, rfl, rfl⟩, rfl⟩
      | element =>
          cases hrow : around.element with
          | none => rw [hrow] at h; cases h
          | some row =>
              rw [hrow] at h
              obtain ⟨rfl, rfl⟩ := Step.pure_eq_ok h
              exact ⟨⟨.element, rfl, by rw [base?, hrow, Option.map_some]⟩, rfl⟩

theorem reference_eq_ok {around : Surroundings} {scope : Node} {name : Option String}
    {out after : Output} {names : List String}
    (h : around.reference scope name out = .ok (names, after)) :
    (∃ root base, scope.root? = some root ∧ around.base? root = some base ∧
      names = base ++ (scope.path ++ name.toList)) ∧
      (∀ part ∈ scope.path ++ name.toList, isIdentifier part = true) ∧ after = out := by
  obtain ⟨base, middle, hbase, hnames⟩ := Step.bind_eq_ok h
  obtain ⟨⟨root, hroot, found⟩, rfl⟩ := base_eq_ok hbase
  obtain ⟨_, checked, hcheck, hresult⟩ := Step.bind_eq_ok hnames
  obtain ⟨valid, rfl⟩ := forM_checkIdentifier_eq_ok hcheck
  obtain ⟨rfl, rfl⟩ := Step.pure_eq_ok hresult
  exact ⟨⟨root, base, hroot, found, rfl⟩, valid, rfl⟩

theorem owner_eq_ok {around : Surroundings} {parent : Node} {out after : Output} {row : Row}
    (h : around.owner parent out = .ok (row, after)) :
    around.owner? parent = some row ∧ after = out := by
  unfold owner?
  by_cases hroot : parent.root? = some .element
  · rw [if_pos hroot]
    unfold owner at h
    rw [hroot] at h
    cases hrow : around.element with
    | none => rw [hrow] at h; cases h
    | some inner =>
        rw [hrow] at h
        obtain ⟨rfl, rfl⟩ := Step.pure_eq_ok h
        exact ⟨rfl, rfl⟩
  · rw [if_neg hroot]
    -- what has another root or none counts as a collection of the document
    have document : around.owner parent = pure around.document := by
      unfold owner
      split
      · exact absurd ‹_› hroot
      · exact absurd ‹_› hroot
      · rfl
    rw [document] at h
    obtain ⟨rfl, rfl⟩ := Step.pure_eq_ok h
    exact ⟨rfl, rfl⟩

/-! ## Collections -/

end Surroundings

/-- The names of a join have been checked. -/
def Join.IsValid (join : Join) : Prop :=
  isIdentifier join.child = true ∧ isIdentifier join.owner = true ∧ isIdentifier join.parent = true

namespace Surroundings

/-- The joins of a relation to the row that owns it. -/
def joinsTo (relation : Relation) (owner : Row) (name : String) : List Join :=
  relation.keys.map fun key => ⟨key.child, owner.name.getD name, key.parent⟩

/-- Every key gives a join, once its names have been checked. -/
theorem mapM_keys_eq_ok {keys : List JoinKey} {reference : String} {out after : Output}
    {joins : List Join}
    (h : (keys.mapM (fun key => do
      checkIdentifier key.child
      checkIdentifier key.parent
      return ⟨key.child, reference, key.parent⟩) : Step (List Join)) out = .ok (joins, after))
    (valid : isIdentifier reference = true) :
    joins = keys.map (fun key => ⟨key.child, reference, key.parent⟩) ∧
      (∀ join ∈ joins, join.IsValid) ∧ after = out := by
  induction keys generalizing out joins with
  | nil =>
      obtain ⟨rfl, rfl⟩ := Step.pure_eq_ok h
      exact ⟨rfl, nofun, rfl⟩
  | cons key keys ih =>
      rw [List.mapM_cons] at h
      obtain ⟨first, middle, hfirst, hothers⟩ := Step.bind_eq_ok h
      obtain ⟨_, checked, hchild, hbehind⟩ := Step.bind_eq_ok hfirst
      obtain ⟨child, rfl⟩ := checkIdentifier_eq_ok hchild
      obtain ⟨_, checked, hparent, hjoin⟩ := Step.bind_eq_ok hbehind
      obtain ⟨parent, rfl⟩ := checkIdentifier_eq_ok hparent
      obtain ⟨rfl, rfl⟩ := Step.pure_eq_ok hjoin
      obtain ⟨others, last, hothers, hresult⟩ := Step.bind_eq_ok hothers
      obtain ⟨rfl, rfl⟩ := Step.pure_eq_ok hresult
      obtain ⟨rfl, all, rfl⟩ := ih hothers
      exact ⟨rfl, List.forall_mem_cons.mpr ⟨⟨child, valid, parent⟩, all⟩, rfl⟩

theorem joins_eq_ok {relation : Relation} {owner : Row} {name : String} {out after : Output}
    {joins : List Join} (h : Surroundings.joins relation owner name out = .ok (joins, after)) :
    joins = joinsTo relation owner name ∧ (∀ join ∈ joins, join.IsValid) ∧ after = out := by
  unfold Surroundings.joins at h
  by_cases hkeys : relation.keys.isEmpty
  · rw [if_pos hkeys] at h
    obtain ⟨rfl, rfl⟩ := Step.pure_eq_ok h
    rw [List.isEmpty_iff] at hkeys
    exact ⟨by rw [joinsTo, hkeys, List.map_nil], nofun, rfl⟩
  · rw [if_neg hkeys] at h
    obtain ⟨_, checked, hcheck, hkeys⟩ := Step.bind_eq_ok h
    obtain ⟨valid, rfl⟩ := checkIdentifier_eq_ok hcheck
    exact mapM_keys_eq_ok hkeys valid

end Surroundings

/-- The name of the rows of a test: what they are, and the number of the test. -/
def aliasOf (stem : String) (number : Nat) : String := stem ++ "_" ++ toString number

/-- What a collection test ranges over, the name of its rows, and the row that it tests. The test is
the one with the given number. -/
inductive Ranges (around : Surroundings) (parent : Node) (name : String) (number : Nat) :
    Source → String → Row → Prop where
  | elements {owner : Row} {root : Root} {base : List String}
      (owned : around.owner? parent = some owner)
      (stored : ∀ relation, owner.table.bind (·.mapping? name) ≠ some (.relational relation))
      (anchored : parent.root? = some root) (found : around.base? root = some base)
      (valid : ∀ part ∈ parent.path, isIdentifier part = true) :
      Ranges around parent name number (.elements (base ++ parent.path))
        (aliasOf (singularize name) number)
        ⟨some (aliasOf (singularize name) number), none⟩
  | rows {owner : Row} {relation : Relation} (owned : around.owner? parent = some owner)
      (stored : owner.table.bind (·.mapping? name) = some (.relational relation))
      (table : isIdentifier relation.table = true)
      (stem : isIdentifier (relation.shortName.getD (singularize name)) = true)
      (valid : ∀ join ∈ Surroundings.joinsTo relation owner name, join.IsValid) :
      Ranges around parent name number
        (.rows relation.table (Surroundings.joinsTo relation owner name))
        (aliasOf (relation.shortName.getD (singularize name)) number)
        ⟨some (aliasOf (relation.shortName.getD (singularize name)) number),
          around.schema.table? relation.table⟩

theorem freshAlias_eq_ok {stem rowName : String} {out after : Output}
    (h : freshAlias stem out = .ok (rowName, after)) :
    rowName = aliasOf stem (out.aliases + 1) ∧ after = { out with aliases := out.aliases + 1 } := by
  cases h
  exact ⟨rfl, rfl⟩

theorem elements_eq_ok {around : Surroundings} {parent : Node} {name : String} {owner : Row}
    (owned : around.owner? parent = some owner)
    (stored : ∀ relation, owner.table.bind (·.mapping? name) ≠ some (.relational relation))
    {out after : Output} {test : Source × String × Row}
    (h : (do
      let array ← around.reference parent none
      let rowName ← freshAlias (singularize name)
      return (.elements array, rowName, ⟨some rowName, none⟩) : Step (Source × String × Row)) out =
        .ok (test, after)) :
    Ranges around parent name (out.aliases + 1) test.1 test.2.1 test.2.2 ∧
      after = { out with aliases := out.aliases + 1 } := by
  obtain ⟨array, referred, harray, hnamed⟩ := Step.bind_eq_ok h
  obtain ⟨⟨root, base, anchored, found, rfl⟩, valid, rfl⟩ := Surroundings.reference_eq_ok harray
  obtain ⟨rowName, named, hfresh, hresult⟩ := Step.bind_eq_ok hnamed
  obtain ⟨rfl, rfl⟩ := freshAlias_eq_ok hfresh
  obtain ⟨rfl, rfl⟩ := Step.pure_eq_ok hresult
  rw [Option.toList_none, List.append_nil] at valid ⊢
  exact ⟨.elements owned stored anchored found valid, rfl⟩

theorem Surroundings.collection_eq_ok {around : Surroundings} {parent : Node} {name : String}
    {out after : Output} {test : Source × String × Row}
    (h : around.collection parent name out = .ok (test, after)) :
    Ranges around parent name (out.aliases + 1) test.1 test.2.1 test.2.2 ∧
      after = { out with aliases := out.aliases + 1 } := by
  obtain ⟨owner, middle, howner, hstored⟩ := Step.bind_eq_ok h
  obtain ⟨owned, rfl⟩ := owner_eq_ok howner
  cases stored : owner.table.bind (·.mapping? name) with
  | none =>
      rw [stored] at hstored
      exact elements_eq_ok owned (by simp [stored]) hstored
  | some mapping =>
      rw [stored] at hstored
      cases mapping with
      | embedded => exact elements_eq_ok owned (by simp [stored]) hstored
      | relational relation =>
          -- in the order of the steps: the table, the stem, the alias and the joins
          obtain ⟨_, checked, htable, hbehind⟩ := Step.bind_eq_ok hstored
          obtain ⟨table, rfl⟩ := checkIdentifier_eq_ok htable
          obtain ⟨_, checked, hstem, hnamed⟩ := Step.bind_eq_ok hbehind
          obtain ⟨stem, rfl⟩ := checkIdentifier_eq_ok hstem
          obtain ⟨rowName, named, hfresh, hjoined⟩ := Step.bind_eq_ok hnamed
          obtain ⟨rfl, rfl⟩ := freshAlias_eq_ok hfresh
          obtain ⟨joins, joined, hjoins, hresult⟩ := Step.bind_eq_ok hjoined
          obtain ⟨rfl, valid, rfl⟩ := joins_eq_ok hjoins
          obtain ⟨rfl, rfl⟩ := Step.pure_eq_ok hresult
          exact ⟨.rows owned stored table stem valid, rfl⟩

/-! ## Trees -/

/-- The tree has this condition where it stands, and writing it leads from one output to the
next. -/
inductive Compiles : Surroundings → Node → Output → Condition → Output → Prop where
  | literal {around : Surroundings} (v : Value) (out : Output) :
      Compiles around (.value (.literal v)) out (.parameter (out.parameters.length + 1))
        { out with parameters := out.parameters ++ [v] }
  | field {around : Surroundings} {scope : Node} {name : String} {root : Root} {base : List String}
      (anchored : scope.root? = some root) (found : around.base? root = some base)
      (valid : ∀ part ∈ scope.path ++ [name], isIdentifier part = true) (out : Output) :
      Compiles around (.field scope name) out (.column (base ++ (scope.path ++ [name]))) out
  | collection {around : Surroundings} {scope predicate : Node} {name : String} {out after : Output}
      {source : Source} {rowName : String} {row : Row} {condition : Condition}
      (ranges : Ranges around (.object scope name) name (out.aliases + 1) source rowName row)
      (inner : Compiles (around.inside row) predicate { out with aliases := out.aliases + 1 }
        condition after) :
      Compiles around (.collection (.object scope name) predicate) out
        (.exists source rowName condition) after
  | prefixed {around : Surroundings} {op : Operator} {operand : Node} {grouping : Associativity}
      {out after : Output} {condition : Condition}
      (inner : Compiles around operand out condition after) :
      Compiles around (.prefixed op operand grouping) out (.prefixed op condition grouping) after
  | infixed {around : Surroundings} {left right : Node} {op : Operator} {grouping : Associativity}
      {out middle after : Output} {l r : Condition} (first : Compiles around left out l middle)
      (second : Compiles around right middle r after) :
      Compiles around (.infixed left op right grouping) out (.infixed l op r grouping) after
  | postfixed {around : Surroundings} {op : Operator} {operand : Node} {grouping : Associativity}
      {out after : Output} {condition : Condition}
      (inner : Compiles around operand out condition after) :
      Compiles around (.postfixed operand op grouping) out (.postfixed condition op grouping) after

/-- A field that compiles is the column of the row for its root, by names that are all plain. -/
theorem compile_field_eq_ok {around : Surroundings} {scope : Node} {name : String}
    {out after : Output} {c : Condition}
    (h : compile around (.field scope name) out = .ok (c, after)) :
    ∃ root base, scope.root? = some root ∧ around.base? root = some base ∧
      (∀ part ∈ scope.path ++ [name], isIdentifier part = true) ∧
      c = .column (base ++ (scope.path ++ [name])) ∧ after = out := by
  obtain ⟨names, referred, hnames, hresult⟩ := Step.bind_eq_ok h
  obtain ⟨⟨root, base, anchored, found, rfl⟩, valid, rfl⟩ := Surroundings.reference_eq_ok hnames
  obtain ⟨rfl, rfl⟩ := Step.pure_eq_ok hresult
  exact ⟨root, base, anchored, found, valid, rfl, rfl⟩

/-- A collection test that compiles is one of a named collection, with the parts in their order. -/
theorem compile_collection_eq_ok {around : Surroundings} {parent predicate : Node}
    {out after : Output} {c : Condition}
    (h : compile around (.collection parent predicate) out = .ok (c, after)) :
    ∃ scope name source rowName row condition, parent = .object scope name ∧
      around.collection parent name out =
        .ok ((source, rowName, row), { out with aliases := out.aliases + 1 }) ∧
      Ranges around parent name (out.aliases + 1) source rowName row ∧
      compile (around.inside row) predicate { out with aliases := out.aliases + 1 } =
        .ok (condition, after) ∧
      c = .exists source rowName condition := by
  cases parent with
  | object scope name =>
      obtain ⟨⟨source, rowName, row⟩, named, htest, hbehind⟩ := Step.bind_eq_ok h
      obtain ⟨ranges, rfl⟩ := Surroundings.collection_eq_ok htest
      obtain ⟨condition, written, hinner, hresult⟩ := Step.bind_eq_ok hbehind
      obtain ⟨rfl, rfl⟩ := Step.pure_eq_ok hresult
      exact ⟨scope, name, source, rowName, row, condition, rfl, htest, ranges, hinner, rfl⟩
  | _ => cases h

theorem compile_prefixed_eq_ok {around : Surroundings} {op : Operator} {operand : Node}
    {grouping : Associativity} {out after : Output} {c : Condition}
    (h : compile around (.prefixed op operand grouping) out = .ok (c, after)) :
    ∃ inner, compile around operand out = .ok (inner, after) ∧ c = .prefixed op inner grouping := by
  obtain ⟨inner, written, hinner, hresult⟩ := Step.bind_eq_ok h
  obtain ⟨rfl, rfl⟩ := Step.pure_eq_ok hresult
  exact ⟨inner, hinner, rfl⟩

theorem compile_postfixed_eq_ok {around : Surroundings} {op : Operator} {operand : Node}
    {grouping : Associativity} {out after : Output} {c : Condition}
    (h : compile around (.postfixed operand op grouping) out = .ok (c, after)) :
    ∃ inner, compile around operand out = .ok (inner, after) ∧ c = .postfixed inner op grouping := by
  obtain ⟨inner, written, hinner, hresult⟩ := Step.bind_eq_ok h
  obtain ⟨rfl, rfl⟩ := Step.pure_eq_ok hresult
  exact ⟨inner, hinner, rfl⟩

/-- The left operand is written in front of the right one. -/
theorem compile_infixed_eq_ok {around : Surroundings} {left right : Node} {op : Operator}
    {grouping : Associativity} {out after : Output} {c : Condition}
    (h : compile around (.infixed left op right grouping) out = .ok (c, after)) :
    ∃ l middle r, compile around left out = .ok (l, middle) ∧
      compile around right middle = .ok (r, after) ∧ c = .infixed l op r grouping := by
  obtain ⟨l, middle, hleft, hbehind⟩ := Step.bind_eq_ok h
  obtain ⟨r, written, hright, hresult⟩ := Step.bind_eq_ok hbehind
  obtain ⟨rfl, rfl⟩ := Step.pure_eq_ok hresult
  exact ⟨l, middle, r, hleft, hright, rfl⟩

theorem compiles_of_compile {around : Surroundings} {tree : Node} {out after : Output}
    {condition : Condition} (h : compile around tree out = .ok (condition, after)) :
    Compiles around tree out condition after := by
  induction tree generalizing around out after condition with
  | value operand =>
      cases operand with
      | literal v =>
          cases h
          show Compiles _ _ _ (.parameter (out.parameters ++ [v]).length) _
          rw [List.length_append]
          exact .literal v out
      | placeholder p => cases h
  | globalScope => cases h
  | item => cases h
  | object parent name => cases h
  | field scope name _ =>
      obtain ⟨root, base, anchored, found, valid, rfl, rfl⟩ := compile_field_eq_ok h
      exact .field anchored found valid _
  | collection parent predicate _ ih =>
      obtain ⟨scope, name, source, rowName, row, inner, rfl, -, ranges, hinner, rfl⟩ :=
        compile_collection_eq_ok h
      exact .collection ranges (ih hinner)
  | prefixed op operand grouping ih =>
      obtain ⟨inner, hinner, rfl⟩ := compile_prefixed_eq_ok h
      exact .prefixed (ih hinner)
  | infixed left op right grouping ihl ihr =>
      obtain ⟨first, between, second, hleft, hright, rfl⟩ := compile_infixed_eq_ok h
      exact .infixed (ihl hleft) (ihr hright)
  | postfixed operand op grouping ih =>
      obtain ⟨inner, hinner, rfl⟩ := compile_postfixed_eq_ok h
      exact .postfixed (ih hinner)

/-- The SQL of a whole tree is the text of its condition, with the values that were written. -/
theorem ofNode_eq_ok {around : Surroundings} {tree : Node} {compiled : Compiled}
    (h : ofNode around tree = .ok compiled) :
    ∃ condition out, (compile around tree).run ⟨[], 0⟩ = .ok (condition, out) ∧
      compiled = ⟨condition.render, out.parameters⟩ := by
  obtain ⟨⟨condition, out⟩, written, ⟨⟩⟩ := bind_eq_ok h
  exact ⟨condition, out, written, rfl⟩

theorem compiles_of_ofNode {around : Surroundings} {tree : Node} {compiled : Compiled}
    (h : ofNode around tree = .ok compiled) :
    ∃ condition out, Compiles around tree ⟨[], 0⟩ condition out ∧
      compiled = ⟨condition.render, out.parameters⟩ := by
  obtain ⟨condition, out, written, rfl⟩ := ofNode_eq_ok h
  exact ⟨condition, out, compiles_of_compile written, rfl⟩

end DataFilter.Sql
