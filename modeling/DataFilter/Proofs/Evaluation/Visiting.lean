import DataFilter.Proofs.Evaluation.Meaning

/-!
# Sessions come to the meaning

A session has more to go by than the meaning of a node, its stacks and its current value, but it
leaves them as it should: a visit opens the scope or leaves the value that the node means, and after
a failure the stacks are what they were before. So a session comes to the meaning, and to the same
failure. Where the tree is not well-scoped, that takes an empty stack of scopes: reading from
something that is no scope would else find one that is still open.
-/

namespace DataFilter

/-! ## Runs of steps -/

/-- The session with what a node means: its scope opened, or its value the current one. -/
def Session.leave (s : Session) : Meaning → Session
  | .scope scope => { s with scopes := scope :: s.scopes }
  | .value v => { s with current := some v }

namespace Step

/-- From `s`, the step comes to this outcome: a success in view of it, or the failure that it is,
with the stacks of `base`. -/
def Comes {α β : Type} (base : Session) (step : Step α) (s : Session) (outcome : Except EvalError β)
    (view : β → α × Session) : Prop :=
  match outcome with
  | .ok b => step.run s = (.ok (view b).1, (view b).2)
  | .error e => ∃ final, step.run s = (.error e, final) ∧
      final.scopes = base.scopes ∧ final.items = base.items

section Comes

variable {α β γ δ : Type} {base s middle : Session} {x : Step α} {f : α → Step γ}

theorem run_bind_of_ok {a : α} (h : x.run s = (.ok a, middle)) :
    (x >>= f).run s = (f a).run middle := by
  show ExceptT.bindCont f (x.run s).1 (x.run s).2 = _
  rw [h]
  rfl

theorem run_bind_of_error {e : EvalError} (h : x.run s = (.error e, middle)) :
    (x >>= f).run s = (.error e, middle) := by
  show ExceptT.bindCont f (x.run s).1 (x.run s).2 = _
  rw [h]
  rfl

/-- What comes behind a step goes on from its outcome. -/
theorem Comes.bind {outcome : Except EvalError β} {view : β → α × Session}
    {next : β → Except EvalError δ} {view' : δ → γ × Session} (first : Comes base x s outcome view)
    (behind : ∀ b, outcome = .ok b → Comes base (f (view b).1) (view b).2 (next b) view') :
    Comes base (x >>= f) s (outcome >>= next) view' := by
  cases outcome with
  | error e =>
      obtain ⟨final, hrun, unchanged⟩ := first
      exact ⟨final, run_bind_of_error hrun, unchanged⟩
  | ok b =>
      have hrun : x.run s = (.ok (view b).1, (view b).2) := first
      have hbehind := behind b rfl
      show Comes base (x >>= f) s (next b) view'
      cases hnext : next b with
      | error e =>
          rw [hnext] at hbehind
          obtain ⟨final, hfinal, unchanged⟩ := hbehind
          exact ⟨final, (run_bind_of_ok hrun).trans hfinal, unchanged⟩
      | ok d =>
          rw [hnext] at hbehind
          exact (run_bind_of_ok hrun).trans hbehind

/-- A result that does not depend on the session leaves it alone. -/
theorem comes_lift (outcome : Except EvalError α) (current : Option Value) :
    Comes s (lift outcome) { s with current := current } outcome
      (fun a => (a, { s with current := current })) := by
  cases outcome with
  | error e => exact ⟨_, rfl, rfl, rfl⟩
  | ok a => exact rfl

/-- The result of a step is its outcome, whatever else the step leaves. -/
theorem Comes.run_fst {outcome : Except EvalError β} {view : β → α × Session}
    (h : Comes base x s outcome view) : (x.run s).1 = outcome.map fun b => (view b).1 := by
  cases outcome with
  | error e =>
      obtain ⟨final, hrun, -⟩ := h
      rw [hrun]
      rfl
  | ok b =>
      have hrun : x.run s = (.ok (view b).1, (view b).2) := h
      rw [hrun]
      rfl

end Comes

/-! ## Reading -/

/-- Closing the scope that a visit has opened, if it has opened one or there is none to close. -/
theorem comes_closeScope {m : Meaning} (only : s.scopes = [] ∨ ∃ scope, m = .scope scope) :
    Comes s closeScope (s.leave m) m.toScope (fun scope => (scope, s)) := by
  cases m with
  | scope scope => exact rfl
  | value v =>
      -- nothing was opened, so there must be nothing to close
      rcases only with empty | ⟨scope, ⟨⟩⟩
      obtain ⟨scopes, items, current⟩ := s
      cases empty
      exact ⟨⟨[], items, some v⟩, rfl, rfl, rfl⟩

/-- Looking up a name in the scope that a visit has opened. -/
theorem comes_resolve {setting : Setting} {parent : Node} {visit : Step Unit}
    {element : Option Value}
    (opens : Comes s visit s (parent.meaning setting element) (fun m => ((), s.leave m)))
    (only : s.scopes = [] ∨ parent.IsChain) (name : String) :
    Comes s (resolve setting parent visit name) s
      (parent.readName setting name (parent.meaning setting element)) (fun v => (v, s)) := by
  refine opens.bind fun m hm => ?_
  have opened := only.imp_right fun chain => chain.meaning_isScope hm
  refine (comes_closeScope opened).bind fun scope _ => ?_
  refine (comes_lift (scope.get setting name) s.current).bind fun answer _ => ?_
  cases answer with
  | some v => exact rfl
  | none => exact comes_lift (.error _) s.current

theorem comes_elements {setting : Setting} {parent : Node} (scope : Scope) :
    Comes s (elements setting parent scope) s (parent.elementsOf setting scope)
      (fun items => (items, s)) := by
  refine (comes_lift (scope.get setting elementsName) s.current).bind fun answer _ => ?_
  have refused : Comes s (throw (.notACollection parent.render) : Step (List Value)) s
      (.error (.notACollection parent.render)) (fun items => (items, s)) :=
    comes_lift (.error _) s.current
  cases answer with
  | none =>
      cases scope with
      | document => exact refused
      | nested v => cases v <;> first | exact rfl | exact refused
  | some found => cases found <;> first | exact rfl | exact refused

/-- Taking the value that a visit has left. -/
theorem comes_valueOf {setting : Setting} {node : Node} {visit : Step Unit}
    {element : Option Value}
    (leaves : Comes s visit s (node.meaning setting element) (fun m => ((), s.leave m))) :
    Comes s (valueOf node visit) s (node.asOperand (node.meaning setting element))
      (fun v => (v, { s with current := none })) := by
  unfold valueOf Node.asOperand
  by_cases isScope : node.isScope = true
  · rw [if_pos isScope, if_pos isScope]
    exact comes_lift (.error _) s.current
  · rw [if_neg isScope, if_neg isScope]
    refine leaves.bind fun m hm => ?_
    obtain ⟨v, rfl⟩ := Node.meaning_isValue (Bool.not_eq_true _ ▸ isScope) hm
    exact rfl

/-! ## Collection tests -/

/-- A test runs with its element on the stack, which is taken off again however the test ends. -/
theorem run_testing {element : Value} {test : Step Value} {outcome : Except EvalError Value}
    (h : test.run { s with items := element :: s.items } = (outcome, middle)) :
    (testing element test).run s = (outcome, { middle with items := middle.items.tail }) := by
  have pushed : (modify fun s => { s with items := element :: s.items } : Step Unit).run s =
      (.ok (), { s with items := element :: s.items }) := rfl
  have caught : (ExceptT.mk (test.run >>= fun result => do
      modify fun s => { s with items := s.items.tail }
      pure (.ok result)) : Step (Except EvalError Value)).run
        { s with items := element :: s.items } =
      (.ok outcome, { middle with items := middle.items.tail }) := by
    show (fun result => (Except.ok result.1, { result.2 with items := result.2.items.tail }))
      (test.run { s with items := element :: s.items }) = _
    rw [h]
  refine (run_bind_of_ok pushed).trans ((run_bind_of_ok caught).trans ?_)
  cases outcome <;> rfl

/-- Testing an element comes to what the test comes to, and leaves no value behind. -/
theorem comes_testing {element : Value} {test : Step Value} {outcome : Except EvalError Value}
    (tests : Comes { s with items := element :: s.items } test
      { s with items := element :: s.items } outcome
      (fun v => (v, { s with items := element :: s.items, current := none }))) :
    Comes s (testing element test) s outcome (fun v => (v, { s with current := none })) := by
  cases outcome with
  | ok v => exact run_testing tests
  | error e =>
      obtain ⟨final, hrun, scopes, items⟩ := tests
      refine ⟨_, run_testing hrun, scopes, ?_⟩
      show final.items.tail = s.items
      rw [items]
      rfl

/-- Testing elements one after the other comes to the answers joined by `OR`. A value is left behind
only where there is no element to test. -/
theorem comes_someElement {table : OperatorTable} {test : Step Value}
    {answer : Value → Except EvalError Value}
    (tests : ∀ element current, Comes s (testing element test) { s with current := current }
      (answer element) (fun v => (v, { s with current := none })))
    (elements : List Value) (outcome : Value) (current : Option Value) :
    Comes s (someElement table test outcome elements) { s with current := current }
      (Node.someMatch table answer outcome elements)
      (fun v => (v, { s with current := if elements.isEmpty then current else none })) := by
  -- from the first element on, nothing is current
  induction elements generalizing outcome current with
  | nil => exact rfl
  | cons element rest ih =>
      refine (tests element current).bind fun matched _ => ?_
      refine (comes_lift _ none).bind fun joined _ => ?_
      have others := ih joined none
      rw [ite_self] at others
      cases joined with
      | boolean b =>
          cases b with
          | true => exact rfl
          | false => exact others
      | _ => exact others

end Step

/-! ## Visits -/

open Step in
/-- A visit to a node comes to its meaning, with the innermost element under test. -/
theorem Node.comes_visit (setting : Setting) (node : Node) (s : Session)
    (only : s.scopes = [] ∨ node.IsWellScoped) :
    Comes s (node.visit setting) s (node.meaning setting s.items.head?)
      (fun m => ((), s.leave m)) := by
  -- the session is that at the node: a predicate is visited once for each element
  induction node generalizing s with
  | value operand =>
      cases operand with
      | literal v => exact rfl
      | placeholder p => exact comes_lift (.error _) s.current
  | globalScope => exact rfl
  | item =>
      obtain ⟨scopes, items, current⟩ := s
      cases items with
      | nil => exact ⟨⟨scopes, [], current⟩, rfl, rfl, rfl⟩
      | cons element items => exact rfl
  | object parent name ih =>
      have opens := ih s (only.imp_right IsChain.isWellScoped)
      exact (comes_resolve opens only name).bind fun v _ => rfl
  | field scope name ih =>
      have opens := ih s (only.imp_right IsChain.isWellScoped)
      exact (comes_resolve opens only name).bind fun v _ => rfl
  | collection parent predicate ihs ihp =>
      have opens := ihs s (only.imp_right fun h => h.1.isWellScoped)
      refine opens.bind fun m hm => ?_
      have chain := only.imp_right fun h => h.1.meaning_isScope hm
      refine (comes_closeScope chain).bind fun scope _ => ?_
      refine (comes_elements scope).bind fun items _ => ?_
      -- the predicate is visited with the element on the stack, and with whatever is current
      have tests (element : Value) (current : Option Value) :
          Comes s (testing element (valueOf predicate (predicate.visit setting)))
            { s with current := current }
            (predicate.asOperand (predicate.meaning setting (some element)))
            (fun v => (v, { s with current := none })) := by
        have visits := ihp { s with items := element :: s.items, current := current }
          (only.imp_right fun h => h.2)
        exact comes_testing (comes_valueOf visits)
      exact (comes_someElement tests items _ s.current).bind fun outcome _ => rfl
  | prefixed op operand grouping ih =>
      refine (comes_valueOf (ih s only)).bind fun v _ => ?_
      exact (comes_lift _ none).bind fun outcome _ => rfl
  | infixed left op right grouping ihl ihr =>
      have leavesLeft := ihl s (only.imp_right fun h => h.1)
      refine (comes_valueOf leavesLeft).bind fun l _ => ?_
      by_cases decided : decides op l = true
      · rw [if_pos decided, if_pos decided]
        exact rfl
      · rw [if_neg decided, if_neg decided]
        have leavesRight := ihr { s with current := none } (only.imp_right fun h => h.2)
        refine (comes_valueOf leavesRight).bind fun r _ => ?_
        exact (comes_lift _ none).bind fun outcome _ => rfl
  | postfixed operand op grouping ih =>
      refine (comes_valueOf (ih s only)).bind fun v _ => ?_
      exact (comes_lift _ none).bind fun outcome _ => rfl

/-- A fresh session decides a tree by its meaning. -/
theorem Node.decideWith_eq (table : OperatorTable) (context : Context) (tree : Node) :
    tree.decideWith table context =
      tree.meaning ⟨table, context⟩ none >>= Meaning.truth := by
  have visits := tree.comes_visit ⟨table, context⟩ Session.fresh (.inl rfl)
  unfold decideWith
  cases hm : tree.meaning ⟨table, context⟩ none with
  | error e =>
      rw [show Session.fresh.items.head? = none from rfl, hm] at visits
      obtain ⟨final, hrun, -⟩ := visits
      rw [hrun]
      rfl
  | ok m =>
      rw [show Session.fresh.items.head? = none from rfl, hm] at visits
      have hrun : (tree.visit ⟨table, context⟩).run Session.fresh = _ := visits
      rw [hrun]
      cases m with
      | scope scope => rfl
      | value v => cases v <;> rfl

/-- A session takes a tree for the value that it means. -/
theorem Node.evaluate_eq (setting : Setting) (tree : Node) (s : Session)
    (only : s.scopes = [] ∨ tree.IsWellScoped) :
    ((tree.evaluate setting).run s).1 =
      tree.asOperand (tree.meaning setting s.items.head?) := by
  have taken := (Step.comes_valueOf (tree.comes_visit setting s only)).run_fst
  rw [Node.evaluate, taken]
  show (tree.asOperand _).map id = _
  cases tree.asOperand (tree.meaning setting s.items.head?) <;> rfl

/-- Whatever the tree, a fresh session computes its meaning. By any rules, a visit opens the scope
or leaves the value that the tree means, and nothing else, or it fails as the meaning does and the
stacks are empty again; and the tree is decided by the truth of its meaning. -/
theorem Node.fresh_session_computes_meaning (tree : Node) (context : Context) :
    (∀ table : OperatorTable,
      Step.Comes .fresh (tree.visit ⟨table, context⟩) .fresh (tree.meaning ⟨table, context⟩ none)
        (fun m => ((), Session.fresh.leave m)) ∧
      tree.decideWith table context = tree.meaning ⟨table, context⟩ none >>= Meaning.truth) ∧
    tree.decide context = tree.meaning ⟨.standard, context⟩ none >>= Meaning.truth := by
  refine ⟨?_, tree.decideWith_eq .standard context⟩
  intro table
  refine ⟨?_, tree.decideWith_eq table context⟩
  exact tree.comes_visit ⟨table, context⟩ Session.fresh (.inl rfl)

end DataFilter
