import DataFilter.Proofs.Template.Grammar

/-!
# Trees that templates can express

Not every tree is the meaning of a template: templates know no arithmetic, compare operands only,
and write no instants. `Expressible` lists the trees that are left, one constructor for each way to
build them. A condition stands between the parentheses of a template or a collection test, an
operand on a side of a comparison.
-/

namespace DataFilter

/-- A name that is read as a name, and not as one of the three literals that look like names. -/
def IsIdentifier (name : String) : Prop :=
  isName name.toList = true ∧ name ≠ "true" ∧ name ≠ "false" ∧ name ≠ "null"

/-- An operand of one token that has a spelling: numbers are finite, and names are names. -/
def Grammar.Atom.HasSpelling : Grammar.Atom → Prop
  | .float x => x.isFinite = true
  | .placeholder ⟨.name name, _⟩ => isName name.toList = true
  | _ => True

/-- A chain of scopes that a template can write, inside or outside of a collection test: identifiers
behind `$`, or behind `@` inside a test. -/
inductive IsScopePath (inTest : Bool) : Node → Prop where
  | document : IsScopePath inTest .globalScope
  | element (inside : inTest = true) : IsScopePath inTest .item
  | object {parent : Node} {name : String} (path : IsScopePath inTest parent)
      (identifier : IsIdentifier name) : IsScopePath inTest (.object parent name)

/-- The places of a tree. -/
inductive Place where
  | operand
  | condition

open Grammar in
/-- The trees that a template can express at a place, inside or outside of a collection test. -/
inductive Expressible : Place → Bool → Node → Prop where
  /-- A literal or a placeholder. -/
  | atom {inTest : Bool} (a : Atom) (spelled : a.HasSpelling) : Expressible .operand inTest a.node
  | field {inTest : Bool} {scope : Node} {name : String} (path : IsScopePath inTest scope)
      (identifier : IsIdentifier name) : Expressible .operand inTest (.field scope name)
  /-- A collection has a name, and its test stands inside of it. -/
  | collection {inTest : Bool} {scope predicate : Node} {name : String}
      (path : IsScopePath inTest scope) (identifier : IsIdentifier name)
      (test : Expressible .condition true predicate) :
      Expressible .operand inTest (.collection (.object scope name) predicate)
  /-- An operand by itself. -/
  | single {inTest : Bool} {operand : Node} (h : Expressible .operand inTest operand) :
      Expressible .condition inTest operand
  /-- A comparison, but not of equality with `null`, which is written otherwise. -/
  | comparison {inTest : Bool} {left right : Node} (sign : Sign)
      (hleft : Expressible .operand inTest left) (hright : Expressible .operand inTest right)
      (usual : sign = .equal ∨ sign = .notEqual → right ≠ .literal .null) :
      Expressible .condition inTest (.between left sign.operator right)
  | isNull {inTest : Bool} {operand : Node} (h : Expressible .operand inTest operand) :
      Expressible .condition inTest (.isNull operand)
  | isNotNull {inTest : Bool} {operand : Node} (h : Expressible .operand inTest operand) :
      Expressible .condition inTest (.isNotNull operand)
  | not {inTest : Bool} {condition : Node} (h : Expressible .condition inTest condition) :
      Expressible .condition inTest (.not condition)
  | and {inTest : Bool} {left right : Node} (hleft : Expressible .condition inTest left)
      (hright : Expressible .condition inTest right) :
      Expressible .condition inTest (.between left .and right)
  | or {inTest : Bool} {left right : Node} (hleft : Expressible .condition inTest left)
      (hright : Expressible .condition inTest right) :
      Expressible .condition inTest (.between left .or right)

/-- The positions that the placeholders of a tree ask for, from left to right. -/
def Node.positions : Node → List Nat
  | value (.placeholder ⟨.position index, _⟩) => [index]
  | value _ | globalScope | item => []
  | object parent _ => parent.positions
  | field scope _ => scope.positions
  | collection parent predicate => parent.positions ++ predicate.positions
  | prefixed _ operand _ => operand.positions
  | infixed left _ right _ => left.positions ++ right.positions
  | postfixed operand _ _ => operand.positions

/-- The placeholders without names are numbered from left to right, from `first` on. -/
def Node.NumberedFrom (first : Nat) (tree : Node) : Prop :=
  tree.positions = List.range' first tree.positions.length

theorem IsScopePath.positions {inTest : Bool} {scope : Node} (h : IsScopePath inTest scope) :
    scope.positions = [] := by
  induction h with
  | document => rfl
  | element => rfl
  | object _ _ ih => exact ih

/-- The numbering of two parts one behind the other is the numbering of both. -/
theorem range'_append_iff {first : Nat} {front back : List Nat}
    (h : front ++ back = List.range' first (front ++ back).length) :
    front = List.range' first front.length ∧
      back = List.range' (first + front.length) back.length := by
  rw [List.length_append, List.range'_append_1.symm] at h
  exact List.append_inj h (by simp)

end DataFilter
