import DataFilter.Proofs.Evaluation.Failing
import DataFilter.Proofs.Sql.Parameters

/-!
# What compiles can be decided

Compiling and deciding judge independently of each other what a reference may hang from. Compiling
follows a chain to its end and takes all names that it meets, deciding opens one scope in the other.
For chains of scopes both come to the same: where a tree has SQL, deciding it goes wrong by its data
only, and each of its values is a parameter. Compiling also goes through the values and the tests
that a chain may be made of, which cannot be opened, and forgets what stands in them.
-/

namespace DataFilter.Sql

section Compiles

variable {around : Surroundings} {tree : Node} {out after : Output} {condition : Condition}

/-- The rows of a collection of the element under test belong to that element. -/
theorem Ranges.isSome_element {parent : Node} {name : String} {number : Nat} {source : Source}
    {rowName : String} {row : Row} (h : Ranges around parent name number source rowName row)
    (anchored : parent.root? = some .element) : around.element.isSome = true := by
  have owned : ∃ owner, around.owner? parent = some owner := by
    cases h with
    | elements owned => exact ⟨_, owned⟩
    | rows owned => exact ⟨_, owned⟩
  obtain ⟨owner, owned⟩ := owned
  rw [Surroundings.owner?, if_pos anchored] at owned
  exact Option.isSome_of_eq_some owned

/-- A chain that compiles ends where there is something. -/
theorem Surroundings.isSome_element {scope : Node} {root : Root} {base : List String}
    (anchored : scope.root? = some root) (found : around.base? root = some base)
    (element : scope.root? = some .element) : around.element.isSome = true := by
  obtain rfl : root = .element := Option.some.inj (anchored.symm.trans element)
  obtain ⟨row, hrow, -⟩ := Option.map_eq_some_iff.mp found
  exact Option.isSome_of_eq_some hrow

/-- What compiles can be read, if it is read from chains. -/
theorem Compiles.isResolvable (h : Compiles around tree out condition after)
    (wellScoped : tree.IsWellScoped) : tree.IsResolvable around.element.isSome := by
  induction h with
  | literal => trivial
  | field anchored found _ _ => exact ⟨wellScoped, Surroundings.isSome_element anchored found⟩
  | collection ranges _ ih =>
      obtain ⟨chain, inner⟩ := wellScoped
      exact ⟨⟨chain, ranges.isSome_element⟩, ih inner⟩
  | prefixed _ ih => exact ih wellScoped
  | infixed _ _ ihl ihr => exact ⟨ihl wellScoped.1, ihr wellScoped.2⟩
  | postfixed _ ih => exact ih wellScoped

end Compiles

/-- A tree that has SQL and reads from chains is decided on any data, or the data is to blame: that
there is no element to refer to, that a scope stands for a value and that a placeholder is not bound
cannot happen. All of its values are handed over with the SQL. -/
theorem failsByData_ofNode {around : Surroundings} (outermost : around.IsOutermost) {tree : Node}
    (wellScoped : tree.IsWellScoped) {compiled : Compiled} (h : ofNode around tree = .ok compiled) :
    (∀ table context, context.FailsByData → OnlyFails IsOfData (tree.decideWith table context)) ∧
      tree.operands = compiled.parameters.map .literal := by
  obtain ⟨condition, out, compiles, rfl⟩ := compiles_of_ofNode h
  have values : tree.operands = out.parameters.map .literal :=
    wellScoped.operands_eq_slots.trans compiles.slots.symm
  have bound : tree.hasPlaceholders = false := by
    apply Node.hasPlaceholders_eq_false
    intro operand hoperand
    rw [values] at hoperand
    obtain ⟨v, -, rfl⟩ := List.mem_map.mp hoperand
    exact ⟨v, rfl⟩
  have outside : around.element.isSome = false := by cases outermost <;> rfl
  have resolvable := compiles.isResolvable wellScoped
  rw [outside] at resolvable
  exact ⟨fun table _ data => resolvable.onlyFails_decideWith bound table data, values⟩

/-- `$.limit == 7 || $.Orders[*][?@.Lines[*][?@.qty > 5] && @.open]` -/
def ordersTree : Node :=
  let lines : Node := .collection (.object .item "Lines")
    (.between (.field .item "qty") .greaterThan (.literal (.integer 5)))
  .between (.between (.field .globalScope "limit") .equal (.literal (.integer 7))) .or
    (.collection (.object .globalScope "Orders") (.between lines .and (.field .item "open")))

/-- Tests in tests, and values in and outside of them. Whatever look-ups fail, the tree is not to
blame. -/
theorem failsByData_ordersTree : ∃ compiled,
    ofNode .unknown ordersTree = .ok compiled ∧
      compiled.sql = "limit = $1 OR EXISTS (SELECT 1 FROM unnest(Orders) AS order_1 WHERE " ++
        "EXISTS (SELECT 1 FROM unnest(order_1.Lines) AS line_2 WHERE line_2.qty > $2) AND " ++
        "order_1.open)" ∧
      (∀ table context, context.FailsByData →
        OnlyFails IsOfData (ordersTree.decideWith table context)) ∧
      (∀ table entries failures, OnlyFails IsOfData
        (ordersTree.decideWith table ((Context.ofEntries entries).failing failures))) ∧
      ordersTree.operands = compiled.parameters.map .literal := by
  have wellScoped : ordersTree.IsWellScoped := by
    simp [ordersTree, Node.between, Node.literal, Node.IsWellScoped, Node.IsChain]
  obtain ⟨data, values⟩ := failsByData_ofNode .unknown wellScoped rfl
  refine ⟨_, rfl, by decide +kernel, data, ?_, values⟩
  intro table entries failures
  exact data table _ ((Context.failsByData_ofEntries entries).failing failures)

/-! ## What hangs from anything but a chain -/

/-- The field `b` of the value of a field, and a field of the answer of a test. Both compile, but
the first cannot be decided even where the data has all names, and the value in the second is
lost. -/
theorem compiles_behind_values :
    (∃ compiled,
      ofNode .unknown (.field (.field .globalScope "a") "b") = .ok compiled ∧
        compiled.sql = "a.b" ∧
        (Node.field (.field .globalScope "a") "b").decide
            (.ofEntries [("a", .object [("b", .boolean true)])]) =
          .error .itemOutsideCollection) ∧
      ∃ compiled,
        ofNode .unknown (.field (.collection (.object .globalScope "Items")
            (.literal (.integer 1))) "x") = .ok compiled ∧
          compiled.sql = "Items.x" ∧ compiled.parameters = [] := by
  refine ⟨⟨_, rfl, by decide +kernel, ?_⟩, _, rfl, by decide +kernel, rfl⟩
  rfl

end DataFilter.Sql
