import DataFilter.Proofs.Evaluation.Visiting
import DataFilter.Proofs.Outcome
import DataFilter.Proofs.Template.Grounded

/-!
# How deciding a template can fail

A tree that is bound fails by its data only, as long as it reads from chains: a name is not known or
cannot be looked up, what should be a collection is none, an operator has no value, or the whole
condition is neither true nor false. That it refers to the element under test where there is none,
takes a scope for a value or meets a placeholder cannot happen, unless the context itself fails so.
Grounded trees are of this kind, as templates are.
-/

namespace DataFilter

/-- The tree itself is to blame, whatever the data. -/
def EvalError.isStructural : EvalError → Bool
  | itemOutsideCollection | scopeAsValue _ | unboundPlaceholder _ => true
  | keyNotFound _ | notBoolean _ | notACollection _ | lookup _ | operator _ => false

/-- A failure that comes from data. -/
def IsOfData (e : EvalError) : Prop := e.isStructural = false

/-- Where the context fails itself, it puts no blame on the tree. -/
def Context.FailsByData (context : Context) : Prop := ∀ name, OnlyFails IsOfData (context.get name)

namespace Context

theorem failsByData_ofEntries (entries : Entries Value) : (ofEntries entries).FailsByData :=
  fun _ => onlyFails_ok _

theorem FailsByData.failing {context : Context} (data : context.FailsByData)
    (failures : Entries String) : (context.failing failures).FailsByData := by
  intro name
  unfold Context.failing
  dsimp only
  split
  · exact onlyFails_error rfl
  · exact data name

end Context

/-! ## Trees that can be read -/

namespace Node

/-- A chain that can be opened: if it ends at the element under test, there is one. -/
def IsRooted (inTest : Bool) (scope : Node) : Prop :=
  scope.IsChain ∧ (scope.root? = some .element → inTest = true)

/-- All that is read is read from a chain that can be opened, and no scope stands in the place of a
value. What the names of the tree are does not matter. -/
def IsResolvable : Bool → Node → Prop
  | _, value _ => True
  | _, globalScope | _, item | _, object _ _ => False
  | inTest, field scope _ => scope.IsRooted inTest
  | inTest, collection parent predicate =>
    parent.IsRooted inTest ∧ predicate.IsResolvable true
  | inTest, prefixed _ operand _ => operand.IsResolvable inTest
  | inTest, infixed left _ right _ => left.IsResolvable inTest ∧ right.IsResolvable inTest
  | inTest, postfixed operand _ _ => operand.IsResolvable inTest

/-- A node that can be read as a value is no scope. -/
theorem IsResolvable.isScope {inTest : Bool} {node : Node} (h : node.IsResolvable inTest) :
    node.isScope = false := by
  cases node with
  | globalScope => cases h
  | item => cases h
  | object parent name => cases h
  | _ => rfl

end Node

theorem IsScopePath.isRooted {inTest : Bool} {scope : Node} (h : IsScopePath inTest scope) :
    scope.IsRooted inTest := by
  induction h with
  | document => exact ⟨trivial, nofun⟩
  | element inside => exact ⟨trivial, fun _ => inside⟩
  | object _ _ ih => exact ih

theorem Node.IsGrounded.isResolvable {inTest : Bool} {tree : Node} (h : tree.IsGrounded inTest) :
    tree.IsResolvable inTest := by
  induction tree generalizing inTest with
  | value operand => trivial
  | field scope name _ => exact h.1.isRooted
  | collection parent predicate _ ih => exact ⟨h.1.isRooted, ih h.2.2⟩
  | prefixed op operand grouping ih => exact ih h
  | infixed left op right grouping ihl ihr => exact ⟨ihl h.1, ihr h.2⟩
  | postfixed operand op grouping ih => exact ih h
  | _ => cases h

/-! ## Reading -/

section Reading

variable {setting : Setting} {node : Node}

theorem onlyFails_get (data : setting.context.FailsByData) (name : String) (scope : Scope) :
    OnlyFails IsOfData (scope.get setting name) := by
  cases scope with
  | document => exact data name
  | nested v => exact onlyFails_ok _

theorem onlyFails_operator (result : Except OperatorError Value) :
    OnlyFails IsOfData (result.mapError .operator) := by
  have data (e : OperatorError) : IsOfData (.operator e) := rfl
  exact onlyFails_mapError data result

theorem onlyFails_elementsOf (data : setting.context.FailsByData) (scope : Scope) :
    OnlyFails IsOfData (node.elementsOf setting scope) := by
  refine (onlyFails_get data elementsName scope).bind fun answer _ => ?_
  split
  · exact onlyFails_ok _
  · exact onlyFails_ok _
  · exact onlyFails_error rfl

theorem onlyFails_someMatch {table : OperatorTable} {test : Value → Except EvalError Value}
    (tests : ∀ element, OnlyFails IsOfData (test element)) (outcome : Value)
    (elements : List Value) : OnlyFails IsOfData (Node.someMatch table test outcome elements) := by
  induction elements generalizing outcome with
  | nil => exact onlyFails_ok _
  | cons element rest ih =>
      refine (tests element).bind fun matched _ => ?_
      refine (onlyFails_operator _).bind fun joined _ => ?_
      split
      · exact onlyFails_ok _
      · exact ih joined

end Reading

/-! ## Trees -/

section Trees

variable {setting : Setting} {inTest : Bool} {element : Option Value}

/-- A name is read from a chain unless the data does not have it. -/
theorem Node.IsChain.onlyFails_readName {scope : Node} (chain : scope.IsChain)
    (data : setting.context.FailsByData)
    (opens : OnlyFails IsOfData (scope.meaning setting element)) (name : String) :
    OnlyFails IsOfData (scope.readName setting name (scope.meaning setting element)) := by
  refine opens.bind fun m hm => ?_
  obtain ⟨scope, rfl⟩ := chain.meaning_isScope hm
  refine (onlyFails_get data name scope).bind fun answer _ => ?_
  cases answer with
  | some v => exact onlyFails_ok v
  | none => exact onlyFails_error rfl

/-- A chain is opened unless the data lacks one of its names. -/
theorem Node.IsRooted.onlyFails_meaning {scope : Node} (rooted : scope.IsRooted inTest)
    (data : setting.context.FailsByData) (present : inTest = true → ∃ v, element = some v) :
    OnlyFails IsOfData (scope.meaning setting element) := by
  induction scope with
  | globalScope => exact onlyFails_ok _
  | item =>
      obtain ⟨v, rfl⟩ := present (rooted.2 rfl)
      exact onlyFails_ok _
  | object parent name ih =>
      have inner : parent.IsRooted inTest := rooted
      exact (inner.1.onlyFails_readName data (ih inner) name).bind fun _ _ => onlyFails_ok _
  | _ => cases rooted.1

/-- A node that can be read as a value has one as an operand. -/
theorem Node.IsResolvable.onlyFails_asOperand {node : Node} (resolvable : node.IsResolvable inTest)
    (leaves : OnlyFails IsOfData (node.meaning setting element)) :
    OnlyFails IsOfData (node.asOperand (node.meaning setting element)) := by
  unfold Node.asOperand
  rw [resolvable.isScope, if_neg Bool.false_ne_true]
  refine leaves.bind fun m hm => ?_
  obtain ⟨v, rfl⟩ := Node.meaning_isValue resolvable.isScope hm
  exact onlyFails_ok v

/-- A tree that can be read and has no placeholders fails by its data only. -/
theorem Node.IsResolvable.onlyFails_meaning {tree : Node} (resolvable : tree.IsResolvable inTest)
    (bound : tree.hasPlaceholders = false) (data : setting.context.FailsByData)
    (present : inTest = true → ∃ v, element = some v) :
    OnlyFails IsOfData (tree.meaning setting element) := by
  -- a test has an element whatever it stands in, so that `@` always means one
  induction tree generalizing inTest element with
  | value operand =>
      cases operand with
      | literal v => exact onlyFails_ok _
      | placeholder p => cases bound
  | globalScope => cases resolvable
  | item => cases resolvable
  | object parent name => cases resolvable
  | field scope name _ =>
      have rooted : scope.IsRooted inTest := resolvable
      have opens : OnlyFails IsOfData (scope.meaning setting element) :=
        rooted.onlyFails_meaning data present
      exact (rooted.1.onlyFails_readName data opens name).bind fun _ _ => onlyFails_ok _
  | collection parent predicate _ ih =>
      obtain ⟨rooted, inner⟩ := resolvable
      refine (rooted.onlyFails_meaning data present).bind fun m hm => ?_
      obtain ⟨scope, rfl⟩ := rooted.1.meaning_isScope hm
      refine (onlyFails_elementsOf data scope).bind fun items _ => ?_
      have tests (v : Value) : OnlyFails IsOfData
          (predicate.asOperand (predicate.meaning setting (some v))) :=
        inner.onlyFails_asOperand (ih inner (Bool.or_eq_false_iff.mp bound).2 fun _ => ⟨v, rfl⟩)
      exact (onlyFails_someMatch tests _ items).bind fun _ _ => onlyFails_ok _
  | prefixed op operand grouping ih =>
      have inner : operand.IsResolvable inTest := resolvable
      refine (inner.onlyFails_asOperand (ih inner bound present)).bind fun v _ => ?_
      exact (onlyFails_operator _).bind fun _ _ => onlyFails_ok _
  | infixed left op right grouping ihl ihr =>
      obtain ⟨boundLeft, boundRight⟩ := Bool.or_eq_false_iff.mp bound
      obtain ⟨first, second⟩ := resolvable
      refine (first.onlyFails_asOperand (ihl first boundLeft present)).bind fun l _ => ?_
      by_cases decided : Step.decides op l = true
      · rw [if_pos decided]
        exact onlyFails_ok _
      · rw [if_neg decided]
        refine (second.onlyFails_asOperand (ihr second boundRight present)).bind fun r _ => ?_
        exact (onlyFails_operator _).bind fun _ _ => onlyFails_ok _
  | postfixed operand op grouping ih =>
      have inner : operand.IsResolvable inTest := resolvable
      refine (inner.onlyFails_asOperand (ih inner bound present)).bind fun v _ => ?_
      exact (onlyFails_operator _).bind fun _ _ => onlyFails_ok _

/-- A tree that can be read and has no placeholders is decided, or the data is to blame. -/
theorem Node.IsResolvable.onlyFails_decideWith {tree : Node} (resolvable : tree.IsResolvable false)
    (bound : tree.hasPlaceholders = false) (table : OperatorTable) {context : Context}
    (data : context.FailsByData) : OnlyFails IsOfData (tree.decideWith table context) := by
  rw [Node.decideWith_eq]
  refine (resolvable.onlyFails_meaning bound data nofun).bind fun m _ => ?_
  unfold Meaning.truth
  split
  · exact onlyFails_ok _
  · exact onlyFails_ok _
  · exact onlyFails_error rfl
  · exact onlyFails_error rfl

/-- A grounded tree without placeholders is decided, or the data is to blame. -/
theorem onlyFails_decideWith {tree : Node} (grounded : tree.IsGrounded false)
    (bound : tree.hasPlaceholders = false) (table : OperatorTable) {context : Context}
    (data : context.FailsByData) : OnlyFails IsOfData (tree.decideWith table context) :=
  grounded.isResolvable.onlyFails_decideWith bound table data

end Trees

end DataFilter
