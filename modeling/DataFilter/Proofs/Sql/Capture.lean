import DataFilter.Proofs.Sql.Agreement
import DataFilter.Proofs.Sql.Referring
import DataFilter.Proofs.Sql.Subqueries

/-!
# References that the name of a row captures

Inside of a test, the name of its rows hides everything outside that is called the same. Names of
rows are made without a look at other names, so that a field of the document or the table of the
whole condition may happen to have the name of a row: what should lead to the document then leads to
the row under test. All that keeps names apart is that names of rows end in the number of a test.
Where no outer name that is used inside of a test ends like that, nothing is captured.
-/

namespace DataFilter

/-- The first names of the references to the document that stand inside of tests. What a test ranges
over belongs to it. -/
def Node.innerDocumentNames : Node → List String
  | value _ | globalScope | item | object _ _ | field _ _ => []
  | collection parent predicate => (collection parent predicate).documentNames
  | prefixed _ operand _ => operand.innerDocumentNames
  | infixed left _ right _ => left.innerDocumentNames ++ right.innerDocumentNames
  | postfixed operand _ _ => operand.innerDocumentNames

namespace Sql

/-- The first names of what is ranged over: of the array, or of the columns of the row outside. -/
def Source.outerNames : Source → List String
  | elements array => array.head?.toList
  | rows _ joins => joins.map (·.owner)

/-- No name of a row hides what a reference to the document leads to. The names of the rows around
are given, and those of a test also hide what is written for the test itself. -/
def IsUncaptured : List String → Node → Condition → Prop
  | _, .value _, .parameter _ => True
  | rows, .field scope _, .column names =>
    scope.root? = some .document → ∀ first ∈ names.head?, first ∉ rows
  | rows, .collection parent predicate, .exists source rowName condition =>
    (parent.root? = some .document → ∀ first ∈ source.outerNames, first ∉ rowName :: rows) ∧
      IsUncaptured (rowName :: rows) predicate condition
  | rows, .prefixed _ operand _, .prefixed _ condition _ => IsUncaptured rows operand condition
  | rows, .infixed left _ right _, .infixed l _ r _ =>
    IsUncaptured rows left l ∧ IsUncaptured rows right r
  | rows, .postfixed operand _ _, .postfixed condition _ _ => IsUncaptured rows operand condition
  | _, _, _ => False

/-- The name ends like that of a row, where there are this many tests. -/
def IsNumbered (tests : Nat) (name : String) : Prop :=
  ∃ stem number, 1 ≤ number ∧ number ≤ tests ∧ name = aliasOf stem number

theorem AreNumbered.isNumbered {names : List String} (h : AreNumbered 1 names) :
    ∀ name ∈ names, IsNumbered names.length name := by
  intro name hname
  obtain ⟨k, inside, rfl⟩ := List.getElem_of_mem hname
  obtain ⟨stem, heq⟩ := h k _ (List.getElem?_eq_getElem inside)
  exact ⟨stem, 1 + k, by omega, by omega, heq⟩

/-! ## Names that are different from those of all rows -/

section Right

variable {schema : Schema} {root : Option TableSchema} {tests : List EnclosingTest}

/-- What a reference to the document begins with is a name of the tree. -/
theorem head?_of_qualified? {scope : Node} {path names : List String}
    (anchored : scope.root? = some .document) (right : qualified? tests scope path = some names) :
    names.head? = path.head? := by
  rw [qualified?, anchored] at right
  rw [Option.some.inj right]

/-- What a test of a collection of the document ranges over begins with a name of the tree, or it is
joined to the table of the whole condition. -/
theorem Source.IsRight.outerNames {parent : Node} {source : Source}
    (right : source.IsRight schema root tests parent) (anchored : parent.root? = some .document) :
    ∀ first ∈ source.outerNames,
      first ∈ parent.path.head?.toList ++ (root.map (·.reference)).toList := by
  intro first hfirst
  cases source with
  | elements array =>
      rw [Source.outerNames, head?_of_qualified? anchored right.2] at hfirst
      exact List.mem_append_left _ hfirst
  | rows table joins =>
      obtain ⟨relation, owner, -, named, -, rfl⟩ := right
      obtain ⟨join, hjoin, rfl⟩ := List.mem_map.mp hfirst
      obtain ⟨key, -, rfl⟩ := List.mem_map.mp hjoin
      rw [ownerName?, anchored, if_neg (by decide)] at named
      exact List.mem_append_right _ (Option.mem_toList.mpr named)

/-- References that point at the right row are not captured, if what they begin with is not the name
of a row. -/
theorem PointsRight.isUncaptured {tree : Node} {condition : Condition}
    (right : PointsRight schema root tests tree condition)
    (free : (tree.documentNames ++ (root.map (·.reference)).toList).Disjoint
      (tests.map (·.rowName) ++ condition.rowNames)) :
    IsUncaptured (tests.map (·.rowName)) tree condition := by
  induction tree generalizing tests condition with
  | value operand =>
      cases condition with
      | parameter number => trivial
      | _ => cases right
  | field scope name _ =>
      cases condition with
      | column names =>
          intro anchored first hfirst captured
          rw [head?_of_qualified? anchored right] at hfirst
          have outer : first ∈ (Node.field scope name).documentNames := by
            rw [Node.documentNames, if_pos anchored]
            exact Option.mem_toList.mpr hfirst
          exact free (List.mem_append_left _ outer) (List.mem_append_left _ captured)
      | _ => cases right
  | collection parent predicate _ ih =>
      cases condition with
      | «exists» source rowName condition =>
          obtain ⟨ranged, inner⟩ := right
          simp only [Node.documentNames, Condition.rowNames, List.disjoint_append_left,
            List.disjoint_append_right, List.disjoint_cons_right, List.mem_append, not_or] at free
          constructor
          · intro anchored first hfirst captured
            have named := ranged.outerNames anchored first hfirst
            rw [if_pos anchored] at free
            have apart : (parent.path.head?.toList ++ (root.map (·.reference)).toList).Disjoint
                (rowName :: tests.map (·.rowName)) := by
              simp only [List.disjoint_append_left, List.disjoint_cons_right, List.mem_append,
                not_or]
              tauto
            exact apart named captured
          · apply ih inner
            simp only [List.map_cons, List.disjoint_append_left, List.disjoint_append_right,
              List.disjoint_cons_right, List.mem_append, not_or]
            tauto
      | _ => cases right
  | prefixed op operand grouping ih =>
      cases condition with
      | prefixed op' condition grouping' => exact ih right.2 free
      | _ => cases right
  | infixed left op second grouping ihl ihr =>
      cases condition with
      | infixed l op' r grouping' =>
          obtain ⟨first, -, other⟩ := right
          simp only [Node.documentNames, Condition.rowNames, List.disjoint_append_left,
            List.disjoint_append_right] at free
          constructor
          · apply ihl first
            simp only [List.disjoint_append_left, List.disjoint_append_right]
            tauto
          · apply ihr other
            simp only [List.disjoint_append_left, List.disjoint_append_right]
            tauto
      | _ => cases right
  | postfixed operand op grouping ih =>
      cases condition with
      | postfixed condition op' grouping' => exact ih right.1 free
      | _ => cases right
  | _ => cases right

/-- Outside of all tests no row has a name, so that only what stands inside of one can be
captured. -/
theorem PointsRight.isUncaptured_outermost {tree : Node} {condition : Condition}
    (right : PointsRight schema root [] tree condition)
    (free : (tree.innerDocumentNames ++ (root.map (·.reference)).toList).Disjoint
      condition.rowNames) : IsUncaptured [] tree condition := by
  induction tree generalizing condition with
  | value operand =>
      cases condition with
      | parameter number => trivial
      | _ => cases right
  | field scope name _ =>
      cases condition with
      | column names => exact fun _ _ _ => List.not_mem_nil
      | _ => cases right
  | collection parent predicate _ _ =>
      have inner : IsUncaptured (List.map EnclosingTest.rowName []) _ condition :=
        right.isUncaptured free
      exact inner
  | prefixed op operand grouping ih =>
      cases condition with
      | prefixed op' condition grouping' => exact ih right.2 free
      | _ => cases right
  | infixed left op second grouping ihl ihr =>
      cases condition with
      | infixed l op' r grouping' =>
          obtain ⟨first, -, other⟩ := right
          simp only [Node.innerDocumentNames, Condition.rowNames, List.disjoint_append_left,
            List.disjoint_append_right] at free
          constructor
          · apply ihl first
            rw [List.disjoint_append_left]
            tauto
          · apply ihr other
            rw [List.disjoint_append_left]
            tauto
      | _ => cases right
  | postfixed operand op grouping ih =>
      cases condition with
      | postfixed condition op' grouping' => exact ih right.1 free
      | _ => cases right
  | _ => cases right

end Right

/-! ## Names that do not end like those of rows -/

/-- A name of a row captures no reference to the document and no join to it, if no name from outside
that is used inside of a test ends in an underscore and the number of a test. -/
theorem isUncaptured_ofNode {around : Surroundings} (outermost : around.IsOutermost) {tree : Node}
    (wellScoped : tree.IsWellScoped)
    (free : ∀ name ∈ tree.innerDocumentNames ++ (around.document.table.map (·.reference)).toList,
      ¬IsNumbered tree.tests name)
    {compiled : Compiled} (h : ofNode around tree = .ok compiled) :
    ∃ condition out, (compile around tree).run ⟨[], 0⟩ = .ok (condition, out) ∧
      compiled = ⟨condition.render, out.parameters⟩ ∧ IsUncaptured [] tree condition := by
  obtain ⟨condition, out, written, rfl⟩ := ofNode_eq_ok h
  have compiles := compiles_of_compile written
  have numbered : AreNumbered 1 condition.rowNames := compiles.areNumbered
  refine ⟨condition, out, written, rfl, ?_⟩
  have right := compiles.pointsRight outermost.isNamedAfterTable outermost.within_nil.symm
  apply right.isUncaptured_outermost
  intro name outer row
  have ends := numbered.isNumbered name row
  rw [compiles.length_rowNames wellScoped] at ends
  exact free name outer ends

/-- A name that ends in a letter is not numbered. -/
theorem not_isNumbered {tests : Nat} {name : String} {c : Char}
    (last : name.toList.getLast? = some c) (letter : c.isDigit = false) :
    ¬IsNumbered tests name := by
  rintro ⟨stem, number, -, -, rfl⟩
  obtain ⟨nonempty, digits⟩ := isDigits_toDigits number
  rw [toList_aliasOf, List.getLast?_append, List.getLast?_cons_of_ne_nil nonempty,
    List.getLast?_eq_some_getLast nonempty, Option.some_or] at last
  obtain rfl := Option.some.inj last
  rw [digits _ (List.getLast_mem nonempty)] at letter
  cases letter

/-- The number at the end of a name is that of a test. -/
theorem IsNumbered.le_of_aliasOf {tests number : Nat} {stem : String}
    (h : IsNumbered tests (aliasOf stem number)) : number ≤ tests := by
  obtain ⟨other, n, -, bound, same⟩ := h
  rwa [(aliasOf_injective same).2]

/-- Stores under a short name, and their items. -/
def storeSchema (shortName : String) : Schema :=
  .ofTables
    [⟨"stores", some shortName, [("Items", .relational ⟨"items", [⟨"store_id", "id"⟩], none⟩)]⟩]

/-- `$.Items[*][?@.price > $.max_price && $.book.tags[*][?@.name == $.tag_9]] || $.item_1` -/
def outerTree : Node :=
  let tags : Node := .collection (.object (.object .globalScope "book") "tags")
    (.between (.field .item "name") .equal (.field .globalScope "tag_9"))
  .between
    (.collection (.object .globalScope "Items")
      (.between (.between (.field .item "price") .greaterThan (.field .globalScope "max_price")) .and
        tags))
    .or (.field .globalScope "item_1")

/-- A ninth test would be needed to capture `tag_9`, and `item_1` stands outside of the first. -/
theorem isUncaptured_outerTree : ∃ compiled,
    ofNode (.ofTable (storeSchema "s") "stores") outerTree = .ok compiled ∧
      compiled.sql = "EXISTS (SELECT 1 FROM items AS item_1 WHERE item_1.store_id = s.id AND " ++
        "item_1.price > max_price AND EXISTS (SELECT 1 FROM unnest(book.tags) AS tag_2 " ++
        "WHERE tag_2.name = tag_9)) OR item_1" ∧
      ∃ condition out,
        (compile (.ofTable (storeSchema "s") "stores") outerTree).run ⟨[], 0⟩ =
            .ok (condition, out) ∧
          compiled = ⟨condition.render, out.parameters⟩ ∧ IsUncaptured [] outerTree condition := by
  have wellScoped : outerTree.IsWellScoped := by
    simp [outerTree, Node.between, Node.IsWellScoped, Node.IsChain]
  have free : ∀ name ∈ ["Items", "max_price", "book", "tag_9", "s"], ¬IsNumbered 2 name := by
    have ninth : ¬IsNumbered 2 (aliasOf "tag" 9) := fun numbered =>
      absurd numbered.le_of_aliasOf (by decide)
    intro name hname
    simp only [List.mem_cons, List.not_mem_nil, or_false] at hname
    rcases hname with rfl | rfl | rfl | rfl | rfl
    · exact not_isNumbered (c := 's') (by decide) rfl
    · exact not_isNumbered (c := 'e') (by decide) rfl
    · exact not_isNumbered (c := 'k') (by decide) rfl
    · exact ninth
    · exact not_isNumbered (c := 's') (by decide) rfl
  refine ⟨_, rfl, by decide +kernel, ?_⟩
  exact isUncaptured_ofNode (.ofTable (storeSchema "s") "stores") wellScoped free rfl

/-- `$.Items[*][?@.price > 10]` -/
def pricedTree : Node :=
  .collection (.object .globalScope "Items")
    (.between (.field .item "price") .greaterThan (.literal (.integer 10)))

/-- If stores are called like the rows of the test, these are joined to themselves. -/
theorem join_is_captured : ∃ condition out,
    (compile (.ofTable (storeSchema "item_1") "stores") pricedTree).run ⟨[], 0⟩ =
        .ok (condition, out) ∧
      pricedTree.IsWellScoped ∧
      condition.render = "EXISTS (SELECT 1 FROM items AS item_1 " ++
        "WHERE item_1.store_id = item_1.id AND item_1.price > $1)" ∧
      ¬IsUncaptured [] pricedTree condition := by
  refine ⟨_, _, rfl, ⟨trivial, trivial, trivial⟩, by decide +kernel, fun uncaptured => ?_⟩
  exact uncaptured.1 rfl "item_1" (by decide) (by decide)

end Sql

end DataFilter
