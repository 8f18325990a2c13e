import DataFilter.Proofs.Template.Expressible

/-!
# Trees whose text means another tree

Programs may put any operator anywhere, and a tree that they build has a text. Where templates have
no such operator, the text is no template. But the text may also be that of another tree: a negation
stands without parentheses in front of a comparison, which it then negates as a whole; a minus sign
becomes part of the number behind it; a comparison with `null` is written as a null test is; and a
scope looks like a reference. `Node.reading` is the tree that the text means, if it means any, and
`Node.isUnambiguous` tells the trees that have none of this: those that are their own reading.
-/

namespace DataFilter

open Grammar

/-! ## Trees with a text -/

/-- The trees that programs can build for a place inside or outside of a collection test, with any
operators: all names are identifiers, all literals have a spelling, and references and collections
hang from chains of scopes. Not every operator is one that templates have. -/
inductive Node.HasSpelling : Bool → Node → Prop where
  /-- A literal or a placeholder. -/
  | atom {inTest : Bool} (a : Atom) (spelled : a.HasSpelling) : HasSpelling inTest a.node
  /-- A scope, also where a value should stand. -/
  | scope {inTest : Bool} {scope : Node} (path : IsScopePath inTest scope) :
      HasSpelling inTest scope
  | field {inTest : Bool} {scope : Node} {name : String} (path : IsScopePath inTest scope)
      (identifier : IsIdentifier name) : HasSpelling inTest (.field scope name)
  | collection {inTest : Bool} {parent predicate : Node} (path : IsScopePath inTest parent)
      (test : HasSpelling true predicate) : HasSpelling inTest (.collection parent predicate)
  | before {inTest : Bool} {operand : Node} (op : Operator) (h : HasSpelling inTest operand) :
      HasSpelling inTest (.before op operand)
  | between {inTest : Bool} {left right : Node} (hleft : HasSpelling inTest left) (op : Operator)
      (hright : HasSpelling inTest right) : HasSpelling inTest (.between left op right)
  | after {inTest : Bool} {operand : Node} (h : HasSpelling inTest operand) (op : Operator) :
      HasSpelling inTest (.after operand op)

/-! ## What their text means -/

/-- The sign of a comparison. -/
def Grammar.Sign.ofOperator? : Operator → Option Sign
  | .equal => some equal
  | .notEqual => some notEqual
  | .lessThan => some less
  | .lessThanEqual => some lessEqual
  | .greaterThan => some greater
  | .greaterThanEqual => some greaterEqual
  | _ => none

/-- The number that a minus sign makes of a number without a sign. -/
def Value.opposite? : Value → Option Value
  | integer n => if 0 ≤ n.toInt then (Integer.ofInt? (-n.toInt)).map integer else none
  | float (.finite false units magnitude) => some (float (.finite true units magnitude))
  | _ => none

namespace Node

def isNegation : Node → Bool
  | prefixed .not _ _ => true
  | _ => false

def isNullLiteral : Node → Bool
  | value (.literal .null) => true
  | _ => false

/-- The tree with its part under all leading negations changed. -/
def underNots (f : Node → Node) : Node → Node
  | prefixed .not operand grouping => prefixed .not (underNots f operand) grouping
  | tree => f tree

/-- The number that a minus sign in front of a literal belongs to. -/
def signed? (op : Operator) (operand : Node) : Option Node :=
  match op, operand with
  | .negative, value (.literal v) | .subtract, value (.literal v) => v.opposite?.map literal
  | _, _ => none

/-- What an operator between two trees means. A comparison takes no more than one operand to its
left, so a negation in front of it negates the comparison. -/
def joined (left : Node) (op : Operator) (right : Node) (grouping : Associativity) : Node :=
  match Sign.ofOperator? op with
  | some sign => left.underNots fun l => sign.compare l right.isNullLiteral right
  | none => infixed left op right grouping

/-- The tree that the text of a tree means, if it means any. -/
def reading : Node → Node
  | value operand => value operand
  | globalScope => globalScope
  | item => item
  | object parent name => field parent name
  | field scope name => field scope name
  | collection parent predicate => collection parent predicate.reading
  | prefixed op operand grouping =>
    (signed? op operand).getD (prefixed op operand.reading grouping)
  | infixed left op right grouping => joined left.reading op right.reading grouping
  | postfixed operand op grouping =>
    if op = .isNull ∨ op = .isNotNull then
      operand.reading.underNots fun l => postfixed l op grouping
    else postfixed operand.reading op grouping

/-- Whether nothing in the text of a tree means another tree. -/
def isUnambiguous : Node → Bool
  | value _ | globalScope | item | field _ _ => true
  | object _ _ => false
  | collection _ predicate => predicate.isUnambiguous
  | prefixed op operand _ => (signed? op operand).isNone && operand.isUnambiguous
  | infixed left op right _ =>
    left.isUnambiguous && right.isUnambiguous && !(op.isComparison && left.isNegation) &&
      !((op = .equal || op = .notEqual) && right.isNullLiteral)
  | postfixed operand op _ =>
    operand.isUnambiguous && !((op = .isNull || op = .isNotNull) && operand.isNegation)

/-! ## Trees that are their own reading -/

section Negations

variable {tree : Node} (f : Node → Node)

theorem underNots_of_not (h : tree.isNegation = false) : tree.underNots f = f tree := by
  unfold isNegation at h
  split at h
  · cases h
  · rename_i other
    unfold underNots
    split
    · exact absurd rfl (other _ _)
    · rfl

theorem isNegation_underNots (h : tree.isNegation = true) :
    (tree.underNots f).isNegation = true := by
  unfold isNegation at h
  split at h
  · rfl
  · cases h

/-- Under no negation, nothing but the tree itself is changed. -/
theorem underNots_eq_iff {target : Node} (plain : target.isNegation = false) :
    tree.underNots f = target ↔ tree.isNegation = false ∧ f tree = target := by
  cases negated : tree.isNegation with
  | false =>
      rw [underNots_of_not f negated]
      simp
  | true =>
      refine ⟨?_, nofun⟩
      rintro rfl
      rw [isNegation_underNots f negated] at plain
      cases plain

end Negations

theorem signed?_eq_literal {op : Operator} {operand number : Node}
    (h : signed? op operand = some number) : ∃ v, number = .literal v := by
  unfold signed? at h
  split at h
  · obtain ⟨v, -, rfl⟩ := Option.map_eq_some_iff.mp h
    exact ⟨v, rfl⟩
  · obtain ⟨v, -, rfl⟩ := Option.map_eq_some_iff.mp h
    exact ⟨v, rfl⟩
  · cases h

end Node

theorem Grammar.Sign.ofOperator?_eq_some {op : Operator} {sign : Sign}
    (h : Sign.ofOperator? op = some sign) : op = sign.operator := by
  cases op <;> cases h <;> rfl

theorem Grammar.Sign.ofOperator?_eq_none {op : Operator} (h : Sign.ofOperator? op = none) :
    op.isComparison = false ∧ op ≠ .equal ∧ op ≠ .notEqual := by
  cases op <;> cases h <;> exact ⟨rfl, nofun, nofun⟩

/-- A comparison is one, unless it is a null test. -/
theorem Grammar.Sign.compare_eq_between_iff (sign : Sign) {left right l r : Node} {null : Bool} :
    sign.compare l null r = .between left sign.operator right ↔
      l = left ∧ r = right ∧ ((sign = .equal ∨ sign = .notEqual) → null = false) := by
  cases sign <;> cases null <;>
    simp [Sign.compare, Node.isNull, Node.isNotNull, Node.after, Node.between, Sign.operator]

namespace Node

section Operators

variable {operand left right : Node} {op : Operator}

theorem reading_before_eq_iff (ih : operand.reading = operand ↔ operand.isUnambiguous = true) :
    (before op operand).reading = before op operand ↔
      (before op operand).isUnambiguous = true := by
  rw [before, reading, isUnambiguous, Bool.and_eq_true, ← ih]
  cases number : signed? op operand with
  | some found =>
      obtain ⟨v, rfl⟩ := signed?_eq_literal number
      exact ⟨nofun, fun h => by cases h.1⟩
  | none =>
      rw [Option.getD_none, prefixed.injEq]
      simp

theorem reading_after_eq_iff (ih : operand.reading = operand ↔ operand.isUnambiguous = true) :
    (after operand op).reading = after operand op ↔ (after operand op).isUnambiguous = true := by
  rw [after, reading, isUnambiguous, Bool.and_eq_true, ← ih]
  by_cases test : op = .isNull ∨ op = .isNotNull
  · rw [if_pos test, underNots_eq_iff _ rfl, postfixed.injEq]
    have tests : (op = .isNull || op = .isNotNull) = true := by simpa using test
    rw [tests, Bool.true_and]
    constructor
    · rintro ⟨plain, same, -⟩
      rw [same] at plain
      exact ⟨same, by rw [plain]; rfl⟩
    · rintro ⟨same, plain⟩
      rw [same]
      exact ⟨by simpa using plain, rfl, rfl, rfl⟩
  · rw [if_neg test, postfixed.injEq]
    have tests : (op = .isNull || op = .isNotNull) = false := by simpa using test
    rw [tests, Bool.false_and]
    simp

theorem reading_between_eq_iff (ihl : left.reading = left ↔ left.isUnambiguous = true)
    (ihr : right.reading = right ↔ right.isUnambiguous = true) :
    (between left op right).reading = between left op right ↔
      (between left op right).isUnambiguous = true := by
  cases compares : Sign.ofOperator? op with
  | some sign =>
      obtain rfl := Sign.ofOperator?_eq_some compares
      have comparison : sign.operator.isComparison = true := by cases sign <;> rfl
      have tests : (sign.operator = .equal || sign.operator = .notEqual) = true ↔
          sign = .equal ∨ sign = .notEqual := by
        cases sign <;> simp [Sign.operator]
      have unfolded : (between left sign.operator right).reading =
          left.reading.underNots fun l =>
            sign.compare l right.reading.isNullLiteral right.reading := by
        rw [between, reading, joined, compares]
      rw [unfolded, underNots_eq_iff _ rfl, Sign.compare_eq_between_iff, between, isUnambiguous,
        comparison, Bool.and_eq_true, Bool.and_eq_true, Bool.and_eq_true, ← ihl, ← ihr,
        Bool.true_and, Bool.not_eq_true', Bool.not_eq_true', Bool.and_eq_false_imp, tests]
      constructor
      · rintro ⟨plain, sameLeft, sameRight, usual⟩
        rw [sameLeft] at plain
        rw [sameRight] at usual
        exact ⟨⟨⟨sameLeft, sameRight⟩, plain⟩, usual⟩
      · rintro ⟨⟨⟨sameLeft, sameRight⟩, plain⟩, usual⟩
        rw [sameLeft, sameRight]
        exact ⟨plain, rfl, rfl, usual⟩
  | none =>
      obtain ⟨plain, notEqual, notUnequal⟩ := Sign.ofOperator?_eq_none compares
      have unfolded : (between left op right).reading =
          infixed left.reading op right.reading op.associativity := by
        rw [between, reading, joined, compares]
      rw [unfolded, between, infixed.injEq, isUnambiguous, plain, Bool.and_eq_true,
        Bool.and_eq_true, Bool.and_eq_true, ← ihl, ← ihr, decide_eq_false notEqual,
        decide_eq_false notUnequal]
      simp

end Operators

/-- A tree is its own reading just if nothing in it means something else. -/
theorem HasSpelling.reading_eq_iff {inTest : Bool} {tree : Node} (h : tree.HasSpelling inTest) :
    tree.reading = tree ↔ tree.isUnambiguous = true := by
  induction h with
  | atom a spelled => cases a <;> exact ⟨fun _ => rfl, fun _ => rfl⟩
  | scope path =>
      cases path with
      | object path identifier => exact ⟨nofun, nofun⟩
      | _ => exact ⟨fun _ => rfl, fun _ => rfl⟩
  | field path identifier => exact ⟨fun _ => rfl, fun _ => rfl⟩
  | collection path test ih =>
      rw [reading, isUnambiguous, ← ih, collection.injEq]
      exact and_iff_right rfl
  | before op h ih => exact reading_before_eq_iff ih
  | between hleft op hright ihl ihr => exact reading_between_eq_iff ihl ihr
  | after h op ih => exact reading_after_eq_iff ih

end Node

end DataFilter
