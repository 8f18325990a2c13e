import DataFilter.Proofs.Evaluation.Quantifiers
import DataFilter.Proofs.Operation.Unknown

/-!
# Unknown values in expressions

An expression of literals, references and strict operators reads all of its leaves, whatever their
values are: nothing in it decides early, so that it has a value only if all of them have. It is
unknown just if one of them is. `isNullByLeaves` carries this from the operands of each operator to
the whole expression.
-/

namespace DataFilter.Node

/-! ## Expressions of strict operators -/

/-- The tree is built from literals, references and operators that are unknown where an operand
is. -/
def IsStrict : Node → Prop
  | value (.literal _) | field _ _ => True
  | prefixed op operand _ | postfixed operand op _ => op.isStrict = true ∧ operand.IsStrict
  | infixed left op right _ => op.isStrict = true ∧ left.IsStrict ∧ right.IsStrict
  | _ => False

/-- What stands under no operator, from left to right: in a strict tree, its literals and
references. -/
def leaves : Node → List Node
  | prefixed _ operand _ | postfixed operand _ _ => operand.leaves
  | infixed left _ right _ => left.leaves ++ right.leaves
  | node => [node]

theorem IsWellScoped.of_mem_leaves {tree leaf : Node} (h : tree.IsWellScoped)
    (member : leaf ∈ tree.leaves) : leaf.IsWellScoped := by
  induction tree with
  | prefixed op operand grouping ih => exact ih h member
  | infixed left op right grouping ihl ihr =>
      rcases List.mem_append.mp member with first | second
      · exact ihl h.1 first
      · exact ihr h.2 second
  | postfixed operand op grouping ih => exact ih h member
  | _ =>
      obtain rfl := List.mem_singleton.mp member
      exact h

/-! ## NULL among the leaves -/

section Leaves

variable {context : Context} {element : Option Value} {tree : Node} {v : Value}

/-- The leaves of the tree have values, and the tree is NULL just if one of them is. -/
def IsNullByLeaves (context : Context) (element : Option Value) (tree : Node) (v : Value) : Prop :=
  (∀ leaf ∈ tree.leaves, ∃ u, leaf.valueAt ⟨.standard, context⟩ element = .ok u) ∧
    (v = .null ↔ ∃ leaf ∈ tree.leaves, leaf.valueAt ⟨.standard, context⟩ element = .ok .null)

/-- A leaf is NULL by itself. -/
theorem isNullByLeaves_leaf (only : tree.leaves = [tree])
    (h : tree.valueAt ⟨.standard, context⟩ element = .ok v) :
    IsNullByLeaves context element tree v := by
  unfold IsNullByLeaves
  rw [only]
  simp only [List.mem_singleton, forall_eq, exists_eq_left, h, Except.ok.injEq]
  exact ⟨⟨v, rfl⟩, trivial⟩

/-- A strict operator is NULL by the leaves of its operand. -/
theorem isNullByLeaves_prefixed {op : Operator} {operand : Node} {grouping : Associativity}
    (strict : op.isStrict = true)
    (ih : ∀ u, operand.valueAt ⟨.standard, context⟩ element = .ok u →
      IsNullByLeaves context element operand u)
    (h : (prefixed op operand grouping).valueAt ⟨.standard, context⟩ element = .ok v) :
    IsNullByLeaves context element (prefixed op operand grouping) v := by
  rw [valueAt_prefixed] at h
  obtain ⟨u, hu, applied⟩ := bind_eq_ok h
  obtain ⟨read, unknown⟩ := ih u hu
  refine ⟨read, ?_⟩
  have outcome : OperatorTable.standard.applyUnary op u = .ok v := mapError_eq_ok applied
  rw [← Except.ok.injEq, ← outcome, OperatorTable.applyUnary_eq_null_iff strict]
  exact unknown

/-- A strict tree that has a value is NULL just if one of its leaves is. -/
theorem isNullByLeaves (strict : tree.IsStrict)
    (h : tree.valueAt ⟨.standard, context⟩ element = .ok v) :
    IsNullByLeaves context element tree v := by
  induction tree generalizing v with
  | value operand => exact isNullByLeaves_leaf rfl h
  | field scope name => exact isNullByLeaves_leaf rfl h
  | prefixed op operand grouping ih =>
      exact isNullByLeaves_prefixed strict.1 (fun u hu => ih strict.2 hu) h
  | postfixed operand op grouping ih =>
      rw [valueAt_postfixed] at h
      exact isNullByLeaves_prefixed strict.1 (fun u hu => ih strict.2 hu) h
  | infixed left op right grouping ihl ihr =>
      obtain ⟨strictOp, strictLeft, strictRight⟩ := strict
      rw [valueAt_infixed] at h
      obtain ⟨l, hl, behind⟩ := bind_eq_ok h
      -- only `AND` and `OR` are decided by an operand alone
      have undecided : Step.decides op l = false := by
        cases op <;> first | rfl | cases strictOp
      rw [undecided, if_neg Bool.false_ne_true] at behind
      obtain ⟨r, hr, applied⟩ := bind_eq_ok behind
      obtain ⟨readLeft, unknownLeft⟩ := ihl strictLeft hl
      obtain ⟨readRight, unknownRight⟩ := ihr strictRight hr
      have outcome : OperatorTable.standard.applyBinary l op r = .ok v := mapError_eq_ok applied
      refine ⟨List.forall_mem_append.mpr ⟨readLeft, readRight⟩, ?_⟩
      rw [← Except.ok.injEq, ← outcome, OperatorTable.applyBinary_eq_null_iff strictOp, unknownLeft,
        unknownRight]
      simp only [leaves, List.mem_append, or_and_right, exists_or]
  | _ => cases strict

end Leaves

/-- NULL comes from NULL, and goes all the way. If a session finds the value of an expression of
literals, references and strict operators, it finds those of all the literals and references in it,
and the value is NULL just if one of these is. For no operator of the language makes NULL of operands
that are known. -/
theorem null_comes_from_null :
    (∀ (tree : Node) (context : Context) (s : Session) (v : Value), tree.IsStrict →
      s.scopes = [] ∨ tree.IsWellScoped → tree.valueIn ⟨.standard, context⟩ s = .ok v →
      (∀ leaf ∈ tree.leaves, ∃ u, leaf.valueIn ⟨.standard, context⟩ s = .ok u) ∧
      (v = .null ↔ ∃ leaf ∈ tree.leaves, leaf.valueIn ⟨.standard, context⟩ s = .ok .null)) ∧
    (∀ op l r, l ≠ .null → r ≠ .null → OperatorTable.standard.applyBinary l op r ≠ .ok .null) ∧
    ∀ op u, u ≠ .null → OperatorTable.standard.applyUnary op u ≠ .ok .null := by
  refine ⟨?_, fun _ _ _ => OperatorTable.applyBinary_ne_null,
    fun _ _ => OperatorTable.applyUnary_ne_null⟩
  intro tree context s v strict only found
  have same (leaf : Node) (member : leaf ∈ tree.leaves) :
      leaf.valueIn ⟨.standard, context⟩ s = leaf.valueAt ⟨.standard, context⟩ s.items.head? :=
    valueIn_eq (only.imp_right fun well => well.of_mem_leaves member)
  have meant : tree.valueAt ⟨.standard, context⟩ s.items.head? = .ok v :=
    (valueIn_eq only).symm.trans found
  obtain ⟨read, unknown⟩ := isNullByLeaves strict meant
  constructor
  · intro leaf member
    rw [same leaf member]
    exact read leaf member
  · rw [unknown]
    refine exists_congr fun leaf => and_congr_right fun member => ?_
    rw [same leaf member]

/-- `!(-$.price * 2 < @.limit - 1)` -/
def boundTree : Node :=
  .not (.between (.between (.before .negative (.field .globalScope "price")) .multiply
      (.literal (.integer 2))) .lessThan
    (.between (.field .item "limit") .subtract (.literal (.integer 1))))

/-- A setting with this price. -/
def priced (price : Value) : Setting := ⟨.standard, .ofEntries [("price", price)]⟩

/-- A session that tests an element with the limit 5. -/
def limited : Session := Session.fresh.within (.object [("limit", .integer 5)])

/-- An unknown price is met below three operators, and a known one leaves nothing unknown. -/
theorem null_comes_from_null_boundTree :
    boundTree.IsStrict ∧
      boundTree.valueIn (priced .null) limited = .ok .null ∧
      (∃ leaf ∈ boundTree.leaves, leaf.valueIn (priced .null) limited = .ok .null) ∧
      boundTree.valueIn (priced (.integer 3)) limited = .ok (.boolean false) ∧
      ¬∃ leaf ∈ boundTree.leaves, leaf.valueIn (priced (.integer 3)) limited = .ok .null := by
  have strict : boundTree.IsStrict := by
    simp [boundTree, not, before, between, literal, IsStrict, Operator.isStrict]
  have unknown : boundTree.valueIn (priced .null) limited = .ok .null := by rfl
  have known : boundTree.valueIn (priced (.integer 3)) limited = .ok (.boolean false) := by rfl
  obtain ⟨trees, -⟩ := null_comes_from_null
  refine ⟨strict, unknown, ?_, known, ?_⟩
  · exact (trees boundTree _ limited _ strict (.inl rfl) unknown).2.mp rfl
  · intro null
    cases (trees boundTree _ limited _ strict (.inl rfl) known).2.mpr null

end DataFilter.Node
