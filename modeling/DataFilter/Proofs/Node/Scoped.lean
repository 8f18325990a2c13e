import DataFilter.Node.Scope

/-!
# Well-scoped trees

What a reference or a collection test hangs from should be a chain of scopes that ends at a root.
Nothing in the type of trees says so, but where it holds, all literals and placeholders of a tree are
values of its condition: `operands` are all that stand in the tree, `slots` are those that are
reached without going down a chain, and in a well-scoped tree the two are the same. A tree has
placeholders, as it says itself, if there are any among its operands.
-/

namespace DataFilter

/-- The placeholder that an operand is, if it is one. -/
def Operand.placeholder? : Operand → Option Placeholder
  | literal _ => none
  | placeholder p => some p

namespace Node

/-- A chain of scopes that ends at the document or at the element under test. -/
def IsChain : Node → Prop
  | globalScope | item => True
  | object parent _ => parent.IsChain
  | _ => False

/-- Whatever a scope, a reference or a collection test hangs from is a chain. -/
def IsWellScoped : Node → Prop
  | value _ | globalScope | item => True
  | object parent _ => parent.IsChain
  | field scope _ => scope.IsChain
  | collection parent predicate => parent.IsChain ∧ predicate.IsWellScoped
  | prefixed _ operand _ => operand.IsWellScoped
  | infixed left _ right _ => left.IsWellScoped ∧ right.IsWellScoped
  | postfixed operand _ _ => operand.IsWellScoped

/-- The literals and placeholders of a tree, from left to right. -/
def operands : Node → List Operand
  | value operand => [operand]
  | globalScope | item => []
  | object parent _ => parent.operands
  | field scope _ => scope.operands
  | collection parent predicate => parent.operands ++ predicate.operands
  | prefixed _ operand _ => operand.operands
  | infixed left _ right _ => left.operands ++ right.operands
  | postfixed operand _ _ => operand.operands

/-- The literals and placeholders that are values of the condition: those of the operands of
operators and of the predicates of collection tests. -/
def slots : Node → List Operand
  | value operand => [operand]
  | globalScope | item | object _ _ | field _ _ => []
  | collection _ predicate => predicate.slots
  | prefixed _ operand _ => operand.slots
  | infixed left _ right _ => left.slots ++ right.slots
  | postfixed operand _ _ => operand.slots

theorem IsChain.operands_eq_nil {scope : Node} (h : scope.IsChain) : scope.operands = [] := by
  induction scope with
  | globalScope => rfl
  | item => rfl
  | object parent name ih => exact ih h
  | _ => cases h

theorem IsChain.isScope {scope : Node} (h : scope.IsChain) : scope.isScope = true := by
  cases scope with
  | globalScope => rfl
  | item => rfl
  | object parent name => rfl
  | _ => cases h

theorem IsChain.isWellScoped {scope : Node} (h : scope.IsChain) : scope.IsWellScoped := by
  cases scope with
  | globalScope => trivial
  | item => trivial
  | object parent name => exact h
  | _ => cases h

/-- Chains hold no values, so none is missed. -/
theorem IsWellScoped.operands_eq_slots {tree : Node} (h : tree.IsWellScoped) :
    tree.operands = tree.slots := by
  induction tree with
  | value operand => rfl
  | globalScope => rfl
  | item => rfl
  | object parent name _ =>
      show parent.operands = []
      exact IsChain.operands_eq_nil h
  | field scope name _ =>
      show scope.operands = []
      exact IsChain.operands_eq_nil h
  | collection parent predicate _ ih =>
      obtain ⟨chain, inner⟩ := h
      rw [operands, chain.operands_eq_nil, ih inner, List.nil_append]
      rfl
  | prefixed op operand grouping ih => exact ih h
  | infixed left op right grouping ihl ihr =>
      obtain ⟨first, second⟩ := h
      rw [operands, ihl first, ihr second]
      rfl
  | postfixed operand op grouping ih => exact ih h

/-! ## Placeholders -/

/-- The placeholders of a tree, from left to right. -/
def placeholders (tree : Node) : List Placeholder := tree.operands.filterMap Operand.placeholder?

theorem placeholders_collection (parent predicate : Node) :
    (collection parent predicate).placeholders = parent.placeholders ++ predicate.placeholders :=
  List.filterMap_append

theorem placeholders_infixed (left : Node) (op : Operator) (right : Node)
    (grouping : Associativity) :
    (infixed left op right grouping).placeholders = left.placeholders ++ right.placeholders :=
  List.filterMap_append

/-- A tree has placeholders where some are listed. -/
theorem hasPlaceholders_eq_false_iff {tree : Node} :
    tree.hasPlaceholders = false ↔ tree.placeholders = [] := by
  induction tree with
  | value operand =>
      cases operand <;> simp [hasPlaceholders, placeholders, operands, Operand.placeholder?]
  | globalScope => simp [hasPlaceholders, placeholders, operands]
  | item => simp [hasPlaceholders, placeholders, operands]
  | object parent name ih => exact ih
  | field scope name ih => exact ih
  | collection parent predicate ihs ihp =>
      rw [placeholders_collection, List.append_eq_nil_iff, ← ihs, ← ihp]
      exact Bool.or_eq_false_iff
  | prefixed op operand grouping ih => exact ih
  | infixed left op right grouping ihl ihr =>
      rw [placeholders_infixed, List.append_eq_nil_iff, ← ihl, ← ihr]
      exact Bool.or_eq_false_iff
  | postfixed operand op grouping ih => exact ih

/-- So it has none if all values in it are literals. -/
theorem hasPlaceholders_eq_false {tree : Node}
    (literals : ∀ operand ∈ tree.operands, ∃ v, operand = .literal v) :
    tree.hasPlaceholders = false := by
  rw [hasPlaceholders_eq_false_iff, placeholders, List.filterMap_eq_nil_iff]
  intro operand member
  obtain ⟨v, rfl⟩ := literals operand member
  rfl

end Node

end DataFilter
