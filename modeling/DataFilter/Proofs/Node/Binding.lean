import DataFilter.Proofs.Node.Scoped
import DataFilter.Proofs.Outcome
import DataFilter.Specification

/-!
# What binding does to a tree

Binding a tree replaces its placeholders and leaves everything else where it is: `Fills` says so, one
constructor for each kind of node. What is proved of bound trees is proved by induction on it. Two
bindings of one tree are `Alike`, they differ in nothing but the values of literals, and which values
those are is told by the slots of the tree, each of which is filled by itself.
-/

namespace DataFilter

/-- The value that an operand is or becomes. -/
def Operand.fill (params : Parameters) : Operand → Except BindError Value
  | literal v => .ok v
  | placeholder p => p.fill params

namespace Node

/-! ## Binding, node by node -/

/-- The second tree is the first one with its operands filled. -/
inductive Fills (params : Parameters) : Node → Node → Prop where
  | value {operand : Operand} {v : Value} (filled : operand.fill params = .ok v) :
      Fills params (.value operand) (.value (.literal v))
  | globalScope : Fills params .globalScope .globalScope
  | item : Fills params .item .item
  | object {a b : Node} (parent : Fills params a b) (name : String) :
      Fills params (.object a name) (.object b name)
  | field {a b : Node} (scope : Fills params a b) (name : String) :
      Fills params (.field a name) (.field b name)
  | collection {a b p q : Node} (parent : Fills params a b) (predicate : Fills params p q) :
      Fills params (.collection a p) (.collection b q)
  | prefixed (op : Operator) {a b : Node} (operand : Fills params a b) (grouping : Associativity) :
      Fills params (.prefixed op a grouping) (.prefixed op b grouping)
  | infixed {a b p q : Node} (left : Fills params a b) (op : Operator) (right : Fills params p q)
      (grouping : Associativity) : Fills params (.infixed a op p grouping) (.infixed b op q grouping)
  | postfixed {a b : Node} (operand : Fills params a b) (op : Operator)
      (grouping : Associativity) : Fills params (.postfixed a op grouping) (.postfixed b op grouping)

theorem fills_of_bind {tree bound : Node} {params : Parameters}
    (h : tree.bind params = .ok bound) : Fills params tree bound := by
  induction tree generalizing bound with
  | value operand =>
      cases operand with
      | literal v =>
          cases h
          exact .value rfl
      | placeholder p =>
          obtain ⟨v, filled, ⟨⟩⟩ := bind_eq_ok h
          exact .value filled
  | globalScope =>
      cases h
      exact .globalScope
  | item =>
      cases h
      exact .item
  | object parent name ih =>
      obtain ⟨inner, hinner, ⟨⟩⟩ := bind_eq_ok h
      exact .object (ih hinner) name
  | field scope name ih =>
      obtain ⟨inner, hinner, ⟨⟩⟩ := bind_eq_ok h
      exact .field (ih hinner) name
  | collection parent predicate ihs ihp =>
      obtain ⟨scope, hscope, hbehind⟩ := bind_eq_ok h
      obtain ⟨inner, hinner, ⟨⟩⟩ := bind_eq_ok hbehind
      exact .collection (ihs hscope) (ihp hinner)
  | prefixed op operand grouping ih =>
      obtain ⟨inner, hinner, ⟨⟩⟩ := bind_eq_ok h
      exact .prefixed op (ih hinner) grouping
  | infixed left op right grouping ihl ihr =>
      obtain ⟨first, hfirst, hbehind⟩ := bind_eq_ok h
      obtain ⟨second, hsecond, ⟨⟩⟩ := bind_eq_ok hbehind
      exact .infixed (ihl hfirst) op (ihr hsecond) grouping
  | postfixed operand op grouping ih =>
      obtain ⟨inner, hinner, ⟨⟩⟩ := bind_eq_ok h
      exact .postfixed (ih hinner) op grouping

/-- Where there is no placeholder, there is nothing to fill. -/
theorem bind_of_hasPlaceholders_eq_false {tree : Node} (h : tree.hasPlaceholders = false)
    (params : Parameters) : tree.bind params = .ok tree := by
  induction tree with
  | value operand =>
      cases operand with
      | literal v => rfl
      | placeholder p => cases h
  | globalScope => rfl
  | item => rfl
  | object parent name ih => rw [bind, ih h]; rfl
  | field scope name ih => rw [bind, ih h]; rfl
  | collection parent predicate ihs ihp =>
      obtain ⟨scope, inner⟩ := Bool.or_eq_false_iff.mp h
      rw [bind, ihs scope, ihp inner]
      rfl
  | prefixed op operand grouping ih => rw [bind, ih h]; rfl
  | infixed left op right grouping ihl ihr =>
      obtain ⟨first, second⟩ := Bool.or_eq_false_iff.mp h
      rw [bind, ihl first, ihr second]
      rfl
  | postfixed operand op grouping ih => rw [bind, ih h]; rfl

/-! ## Two bindings of one tree -/

/-- Trees that differ in nothing but the values of their literals. -/
inductive Alike : Node → Node → Prop where
  | literal (v w : Value) : Alike (.value (.literal v)) (.value (.literal w))
  | globalScope : Alike .globalScope .globalScope
  | item : Alike .item .item
  | object {a b : Node} (parent : Alike a b) (name : String) :
      Alike (.object a name) (.object b name)
  | field {a b : Node} (scope : Alike a b) (name : String) : Alike (.field a name) (.field b name)
  | collection {a b p q : Node} (parent : Alike a b) (predicate : Alike p q) :
      Alike (.collection a p) (.collection b q)
  | prefixed (op : Operator) {a b : Node} (operand : Alike a b) (grouping : Associativity) :
      Alike (.prefixed op a grouping) (.prefixed op b grouping)
  | infixed {a b p q : Node} (left : Alike a b) (op : Operator) (right : Alike p q)
      (grouping : Associativity) : Alike (.infixed a op p grouping) (.infixed b op q grouping)
  | postfixed {a b : Node} (operand : Alike a b) (op : Operator) (grouping : Associativity) :
      Alike (.postfixed a op grouping) (.postfixed b op grouping)

theorem Fills.alike {p q : Parameters} {tree a b : Node} (ha : Fills p tree a)
    (hb : Fills q tree b) : a.Alike b := by
  -- both have the shape of the tree, so that one case is left for each kind of node
  induction ha generalizing b with
  | value =>
      cases hb
      exact .literal _ _
  | globalScope =>
      cases hb
      exact .globalScope
  | item =>
      cases hb
      exact .item
  | object _ name ih =>
      cases hb with | object parent => exact .object (ih parent) name
  | field _ name ih =>
      cases hb with | field scope => exact .field (ih scope) name
  | collection _ _ ihs ihp =>
      cases hb with | collection parent predicate => exact .collection (ihs parent) (ihp predicate)
  | prefixed op _ grouping ih =>
      cases hb with | prefixed _ operand => exact .prefixed op (ih operand) grouping
  | infixed _ op _ grouping ihl ihr =>
      cases hb with | infixed left _ right => exact .infixed (ihl left) op (ihr right) grouping
  | postfixed _ op grouping ih =>
      cases hb with | postfixed operand => exact .postfixed (ih operand) op grouping

/-- The values of a bound tree are what fills the slots of the tree. -/
theorem Fills.slots {params : Parameters} {tree bound : Node} (h : Fills params tree bound) :
    ∃ values : List Value, bound.slots = values.map .literal ∧
      tree.slots.map (·.fill params) = values.map .ok := by
  induction h with
  | @value operand v filled => exact ⟨[v], rfl, congrArg (fun result => [result]) filled⟩
  | collection _ _ _ ih => exact ih
  | prefixed _ _ _ ih => exact ih
  | infixed _ _ _ _ ihl ihr =>
      obtain ⟨front, hfront, filledFront⟩ := ihl
      obtain ⟨back, hback, filledBack⟩ := ihr
      refine ⟨front ++ back, ?_, ?_⟩
      · rw [Node.slots, hfront, hback, List.map_append]
      · rw [Node.slots, List.map_append, filledFront, filledBack, List.map_append]
  | postfixed _ _ _ ih => exact ih
  | _ => exact ⟨[], rfl, rfl⟩

/-- Alike trees have the same chains of names. -/
theorem Alike.chain {a b : Node} (h : a.Alike b) : a.root? = b.root? ∧ a.path = b.path := by
  induction h with
  | object _ name ih => exact ⟨ih.1, congrArg (· ++ [name]) ih.2⟩
  | field _ name ih => exact ⟨ih.1, congrArg (· ++ [name]) ih.2⟩
  | collection _ _ ih _ => exact ih
  | _ => exact ⟨rfl, rfl⟩

end Node

/-- A specification is bound as its tree is. -/
theorem Specification.bind_eq (spec : Specification) (params : Parameters) :
    spec.bind params = spec.tree.bind params := by
  unfold Specification.bind
  by_cases needed : spec.tree.hasPlaceholders = true
  · rw [if_pos needed]
  · rw [if_neg needed, Node.bind_of_hasPlaceholders_eq_false (Bool.not_eq_true _ ▸ needed)]

end DataFilter
