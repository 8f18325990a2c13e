import DataFilter.Evaluation.Session
import DataFilter.Proofs.Node.Scoped
import DataFilter.Proofs.Outcome

/-!
# What a tree means

The meaning of a node depends on the context and on the innermost element under test alone: a path
is read name by name, a collection test joins the answers of its elements, and operators take their
operands from left to right. There is no state to it, only a value or a scope, or a failure.
-/

namespace DataFilter

/-- What a node stands for. -/
inductive Meaning where
  | scope (scope : Scope)
  | value (v : Value)

namespace Meaning

/-- The scope to read from. A value is none. -/
def toScope : Meaning → Except EvalError Scope
  | scope s => .ok s
  | value _ => .error .itemOutsideCollection

/-- The value of a node. A scope is none. -/
def toValue (node : Node) : Meaning → Except EvalError Value
  | value v => .ok v
  | scope _ => .error (.scopeAsValue node.render)

/-- The truth of a whole condition. Unknown counts as false. -/
def truth : Meaning → Except EvalError Bool
  | value (.boolean b) => .ok b
  | value .null => .ok false
  | value v => .error (.notBoolean v.typeName)
  | scope _ => .error (.notBoolean "nothing")

theorem toScope_eq_ok {m : Meaning} {scope : Scope} (h : m.toScope = .ok scope) :
    m = .scope scope := by
  cases m with
  | scope s => exact congrArg _ (Except.ok.inj h)
  | value v => cases h

/-- A condition is decided if it is a boolean, or unknown. -/
theorem truth_eq_ok {m : Meaning} {b : Bool} (h : m.truth = .ok b) :
    m = .value (.boolean b) ∨ m = .value .null ∧ b = false := by
  unfold truth at h
  split at h
  · cases h
    exact .inl rfl
  · cases h
    exact .inr ⟨rfl, rfl⟩
  · cases h
  · cases h

end Meaning

/-- The scope that a root opens. -/
def Root.scope? (element : Option Value) : Root → Option Scope
  | document => some .document
  | .element => element.map .nested

namespace Node

/-- The value of an operand by its meaning. A scope has none, whatever it means. -/
def asOperand (node : Node) (meaning : Except EvalError Meaning) : Except EvalError Value :=
  if node.isScope then .error (.scopeAsValue node.render)
  else do
    let m ← meaning
    m.toValue node

/-- What a name leads to in a scope, by the meaning of the scope. -/
def readName (setting : Setting) (parent : Node) (name : String)
    (meaning : Except EvalError Meaning) : Except EvalError Value := do
  let m ← meaning
  let scope ← m.toScope
  match ← scope.get setting name with
  | some v => .ok v
  | none => .error (.keyNotFound (parent.render ++ "." ++ name))

/-- The elements of a scope that is a collection. NULL has none. -/
def elementsOf (setting : Setting) (parent : Node) (scope : Scope) :
    Except EvalError (List Value) := do
  match ← scope.get setting elementsName, scope with
  | some (.array items), _ => .ok items
  | none, .nested .null => .ok []
  | _, _ => .error (.notACollection parent.render)

/-- The answers of a test joined by `OR`, up to the first element that satisfies it. -/
def someMatch (table : OperatorTable) (test : Value → Except EvalError Value) :
    Value → List Value → Except EvalError Value
  | outcome, [] => .ok outcome
  | outcome, element :: rest => do
    let matched ← test element
    let joined ← (table.applyBinary outcome .or matched).mapError .operator
    match joined with
    | .boolean true => .ok joined
    | _ => someMatch table test joined rest

/-- The meaning of a node, with the element under test if there is one. -/
def meaning (setting : Setting) : Node → Option Value → Except EvalError Meaning
  | value (.literal v), _ => .ok (.value v)
  | value (.placeholder p), _ => .error (.unboundPlaceholder p.render)
  | globalScope, _ => .ok (.scope .document)
  | item, some element => .ok (.scope (.nested element))
  | item, none => .error .itemOutsideCollection
  | object parent name, element => do
    let v ← readName setting parent name (parent.meaning setting element)
    return .scope (.nested v)
  | field scope name, element => do
    let v ← readName setting scope name (scope.meaning setting element)
    return .value v
  | collection parent predicate, element => do
    let m ← parent.meaning setting element
    let scope ← m.toScope
    let items ← elementsOf setting parent scope
    let test := fun element => predicate.asOperand (predicate.meaning setting (some element))
    let outcome ← someMatch setting.table test (.boolean false) items
    return .value outcome
  | prefixed op operand _, element | postfixed operand op _, element => do
    let v ← operand.asOperand (operand.meaning setting element)
    let outcome ← (setting.table.applyUnary op v).mapError .operator
    return .value outcome
  | infixed left op right _, element => do
    let l ← left.asOperand (left.meaning setting element)
    if Step.decides op l then return .value l
    else
      let r ← right.asOperand (right.meaning setting element)
      let outcome ← (setting.table.applyBinary l op r).mapError .operator
      return .value outcome

/-! ## What is known of a success -/

section Success

variable {setting : Setting} {node : Node} {meaning : Except EvalError Meaning} {v : Value}

theorem asOperand_eq_ok (h : node.asOperand meaning = .ok v) : meaning = .ok (.value v) := by
  unfold asOperand at h
  by_cases isScope : node.isScope = true
  · rw [if_pos isScope] at h
    cases h
  · rw [if_neg isScope] at h
    obtain ⟨m, hm, given⟩ := bind_eq_ok h
    cases m with
    | scope scope => cases given
    | value u =>
        cases given
        exact hm

theorem readName_eq_ok {name : String} (h : node.readName setting name meaning = .ok v) :
    ∃ scope, meaning = .ok (.scope scope) ∧ scope.get setting name = .ok (some v) := by
  obtain ⟨m, hm, behind⟩ := bind_eq_ok h
  obtain ⟨scope, hscope, reads⟩ := bind_eq_ok behind
  obtain ⟨answer, hanswer, found⟩ := bind_eq_ok reads
  obtain rfl := Meaning.toScope_eq_ok hscope
  cases answer with
  | none => cases found
  | some u =>
      cases found
      exact ⟨scope, hm, hanswer⟩

end Success

/-! ## What the parts of a tree mean -/

section Parts

variable {setting : Setting} {element : Option Value} {m : Meaning}

theorem meaning_object_eq_ok {parent : Node} {name : String}
    (h : (object parent name).meaning setting element = .ok m) :
    ∃ scope v, parent.meaning setting element = .ok (.scope scope) ∧
      scope.get setting name = .ok (some v) ∧ m = .scope (.nested v) := by
  obtain ⟨v, reads, ⟨⟩⟩ := bind_eq_ok h
  obtain ⟨scope, opened, found⟩ := readName_eq_ok reads
  exact ⟨scope, v, opened, found, rfl⟩

theorem meaning_field_eq_ok {scope : Node} {name : String}
    (h : (field scope name).meaning setting element = .ok m) :
    ∃ outer v, scope.meaning setting element = .ok (.scope outer) ∧
      outer.get setting name = .ok (some v) ∧ m = .value v := by
  obtain ⟨v, reads, ⟨⟩⟩ := bind_eq_ok h
  obtain ⟨outer, opened, found⟩ := readName_eq_ok reads
  exact ⟨outer, v, opened, found, rfl⟩

/-- Where a reference has a value, the chain that ends in its name leads to that. -/
theorem meaning_object_of_field {scope : Node} {name : String} {v : Value}
    (h : (field scope name).meaning setting element = .ok (.value v)) :
    (object scope name).meaning setting element = .ok (.scope (.nested v)) := by
  obtain ⟨u, reads, ⟨⟩⟩ := bind_eq_ok h
  rw [meaning, reads]
  rfl

theorem meaning_collection_eq_ok {parent predicate : Node}
    (h : (collection parent predicate).meaning setting element = .ok m) :
    ∃ scope items outcome, parent.meaning setting element = .ok (.scope scope) ∧
      parent.elementsOf setting scope = .ok items ∧
      someMatch setting.table
        (fun row => predicate.asOperand (predicate.meaning setting (some row))) (.boolean false)
        items = .ok outcome ∧
      m = .value outcome := by
  obtain ⟨inner, hinner, behind⟩ := bind_eq_ok h
  obtain ⟨scope, hscope, behind⟩ := bind_eq_ok behind
  obtain ⟨items, hitems, behind⟩ := bind_eq_ok behind
  obtain ⟨outcome, answers, ⟨⟩⟩ := bind_eq_ok behind
  obtain rfl := Meaning.toScope_eq_ok hscope
  exact ⟨scope, items, outcome, hinner, hitems, answers, rfl⟩

theorem meaning_prefixed_eq_ok {op : Operator} {operand : Node} {grouping : Associativity}
    (h : (prefixed op operand grouping).meaning setting element = .ok m) :
    ∃ u v, operand.meaning setting element = .ok (.value u) ∧
      setting.table.applyUnary op u = .ok v ∧ m = .value v := by
  obtain ⟨u, hu, behind⟩ := bind_eq_ok h
  obtain ⟨v, applied, ⟨⟩⟩ := bind_eq_ok behind
  exact ⟨u, v, asOperand_eq_ok hu, mapError_eq_ok applied, rfl⟩

/-- Behind its operand an operator means what it does in front of it. -/
theorem meaning_postfixed_eq_ok {op : Operator} {operand : Node} {grouping : Associativity}
    (h : (postfixed operand op grouping).meaning setting element = .ok m) :
    ∃ u v, operand.meaning setting element = .ok (.value u) ∧
      setting.table.applyUnary op u = .ok v ∧ m = .value v := by
  have before : (prefixed op operand grouping).meaning setting element = .ok m := h
  exact meaning_prefixed_eq_ok before

/-- The left operand decides, or the operator is applied to both. -/
theorem meaning_infixed_eq_ok {left right : Node} {op : Operator} {grouping : Associativity}
    (h : (infixed left op right grouping).meaning setting element = .ok m) :
    ∃ l, left.meaning setting element = .ok (.value l) ∧
      (Step.decides op l = true ∧ m = .value l ∨
        Step.decides op l = false ∧ ∃ r v, right.meaning setting element = .ok (.value r) ∧
          setting.table.applyBinary l op r = .ok v ∧ m = .value v) := by
  obtain ⟨l, hl, behind⟩ := bind_eq_ok h
  refine ⟨l, asOperand_eq_ok hl, ?_⟩
  cases decided : Step.decides op l with
  | true =>
      rw [if_pos decided] at behind
      cases behind
      exact .inl ⟨rfl, rfl⟩
  | false =>
      rw [if_neg (Bool.eq_false_iff.mp decided)] at behind
      obtain ⟨r, hr, behind⟩ := bind_eq_ok behind
      obtain ⟨v, applied, ⟨⟩⟩ := bind_eq_ok behind
      exact .inr ⟨rfl, r, v, asOperand_eq_ok hr, mapError_eq_ok applied, rfl⟩

end Parts

/-! ## Scopes and values -/

section Kinds

variable {setting : Setting} {node : Node} {element : Option Value} {m : Meaning}

/-- A node that is no scope means a value. -/
theorem meaning_isValue (h : node.isScope = false) (ok : node.meaning setting element = .ok m) :
    ∃ v, m = .value v := by
  cases node with
  | value operand =>
      cases operand with
      | literal v => exact ⟨v, (Except.ok.inj ok).symm⟩
      | placeholder p => cases ok
  | globalScope => cases h
  | item => cases h
  | object parent name => cases h
  | field scope name =>
      obtain ⟨_, v, -, -, given⟩ := meaning_field_eq_ok ok
      exact ⟨v, given⟩
  | collection parent predicate =>
      obtain ⟨_, _, v, -, -, -, given⟩ := meaning_collection_eq_ok ok
      exact ⟨v, given⟩
  | prefixed op operand grouping =>
      obtain ⟨_, v, -, -, given⟩ := meaning_prefixed_eq_ok ok
      exact ⟨v, given⟩
  | infixed left op right grouping =>
      obtain ⟨l, -, ⟨-, given⟩ | ⟨-, _, v, -, -, given⟩⟩ := meaning_infixed_eq_ok ok
      · exact ⟨l, given⟩
      · exact ⟨v, given⟩
  | postfixed operand op grouping =>
      obtain ⟨_, v, -, -, given⟩ := meaning_postfixed_eq_ok ok
      exact ⟨v, given⟩

/-- A node that is a scope means one. -/
theorem meaning_isScope (h : node.isScope = true) (ok : node.meaning setting element = .ok m) :
    ∃ scope, m = .scope scope := by
  cases node with
  | globalScope => exact ⟨_, (Except.ok.inj ok).symm⟩
  | item =>
      cases element with
      | none => cases ok
      | some v => exact ⟨_, (Except.ok.inj ok).symm⟩
  | object parent name =>
      obtain ⟨_, _, -, -, opened⟩ := meaning_object_eq_ok ok
      exact ⟨_, opened⟩
  | _ => cases h

/-- A chain means a scope. -/
theorem IsChain.meaning_isScope (chain : node.IsChain)
    (ok : node.meaning setting element = .ok m) : ∃ scope, m = .scope scope :=
  Node.meaning_isScope chain.isScope ok

end Kinds

/-! ## Values -/

/-- The value of a node by its meaning, with the element under test if there is one. -/
def valueAt (setting : Setting) (element : Option Value) (node : Node) : Except EvalError Value :=
  node.asOperand (node.meaning setting element)

/-- What a node means is its value if it is a value. -/
theorem toValue_value (node : Node) (answer : Except EvalError Value) :
    (do
      let m ← (do
        let v ← answer
        return Meaning.value v)
      m.toValue node) = answer := by
  cases answer <;> rfl

section Values

variable (setting : Setting) (element : Option Value)

/-- An operator in front of its operand has the value that it makes of the operand's. -/
theorem valueAt_prefixed (op : Operator) (operand : Node) (grouping : Associativity) :
    (prefixed op operand grouping).valueAt setting element = (do
      let v ← operand.valueAt setting element
      (setting.table.applyUnary op v).mapError .operator) := by
  show (operand.valueAt setting element >>= _) >>= _ = _
  cases operand.valueAt setting element with
  | error e => rfl
  | ok v => exact toValue_value (prefixed op operand grouping) _

/-- An operator behind its operand has the value that it has in front of it. -/
theorem valueAt_postfixed (operand : Node) (op : Operator) (grouping : Associativity) :
    (postfixed operand op grouping).valueAt setting element =
      (prefixed op operand grouping).valueAt setting element := by
  rw [valueAt_prefixed]
  show (operand.valueAt setting element >>= _) >>= _ = _
  cases operand.valueAt setting element with
  | error e => rfl
  | ok v => exact toValue_value (postfixed operand op grouping) _

/-- An operator between its operands has the value of the left one if that decides, and else the
value that it makes of both. -/
theorem valueAt_infixed (left : Node) (op : Operator) (right : Node) (grouping : Associativity) :
    (infixed left op right grouping).valueAt setting element = (do
      let l ← left.valueAt setting element
      if Step.decides op l then return l
      else
        let r ← right.valueAt setting element
        (setting.table.applyBinary l op r).mapError .operator) := by
  show (left.valueAt setting element >>= _) >>= _ = _
  cases left.valueAt setting element with
  | error e => rfl
  | ok l =>
      show (if Step.decides op l = true then _ else right.valueAt setting element >>= _) >>= _ =
        if Step.decides op l = true then _ else _
      by_cases decided : Step.decides op l = true
      · rw [if_pos decided, if_pos decided]
        rfl
      · rw [if_neg decided, if_neg decided]
        cases right.valueAt setting element with
        | error e => rfl
        | ok r => exact toValue_value (infixed left op right grouping) _

end Values

end Node

end DataFilter
