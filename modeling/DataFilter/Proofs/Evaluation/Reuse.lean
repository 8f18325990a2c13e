import DataFilter.Proofs.Evaluation.Quantifiers

/-!
# Sessions in use

A session may be asked for one thing after the other, and each of these may fail, at any depth. What
it keeps are the scopes that it was asked to open, and nothing else: a walk that fails in the middle
of a path, or at some element of a nested collection test, takes off both stacks what it has put
there. So a session that has been used answers as a fresh one does.

All of it is about well-scoped trees. What hangs from something that is no scope is read from
whatever scope the session has kept.
-/

namespace DataFilter

/-! ## Calls -/

/-- What a session may be asked for. -/
inductive Call where
  /-- To visit a tree. -/
  | visit (tree : Node)
  /-- To take a tree for a value. -/
  | evaluate (tree : Node)

namespace Call

def tree : Call → Node
  | visit tree | evaluate tree => tree

/-- Whether it asks for a scope to be opened. -/
def opensScope : Call → Bool
  | visit tree => tree.isScope
  | evaluate _ => false

/-- What the session does. Its answer is a value where it is asked for one. -/
def step (setting : Setting) : Call → Step (Option Value)
  | visit tree => do
    tree.visit setting
    return none
  | evaluate tree => do
    let v ← tree.evaluate setting
    return some v

/-- The answer of a session. -/
def answer (setting : Setting) (s : Session) (call : Call) : Except EvalError (Option Value) :=
  ((call.step setting).run s).1

end Call

namespace Session

/-- The session after a call. -/
def asked (setting : Setting) (s : Session) (call : Call) : Session :=
  ((call.step setting).run s).2

/-- The session after these calls, whether they succeed or fail. -/
def used (setting : Setting) (s : Session) (calls : List Call) : Session :=
  calls.foldl (asked setting) s

end Session

/-- A call is answered as by a fresh session, and puts on the stacks what it puts there in a fresh
one: no element, and no scope but the one that it asks for. -/
structure AnswersAfresh (setting : Setting) (s : Session) (call : Call) : Prop where
  answer_eq : call.answer setting s = call.answer setting .fresh
  items_eq : (s.asked setting call).items = []
  scopes_eq : (s.asked setting call).scopes =
    (Session.fresh.asked setting call).scopes ++ s.scopes
  opens : call.opensScope = true → (call.answer setting s).isOk = true →
    ∃ scope, (s.asked setting call).scopes = scope :: s.scopes
  keeps : (call.opensScope = true → (call.answer setting s).isOk = false) →
    (s.asked setting call).scopes = s.scopes

/-! ## One call -/

namespace Call

/-- What a call comes to in every session that has no element under test: its answer, and the scopes
that it opens on top of those that are open. -/
structure ComesTo (setting : Setting) (call : Call) (answer : Except EvalError (Option Value))
    (opened : List Scope) : Prop where
  run : ∀ s : Session, s.items = [] → ∃ final, (call.step setting).run s = (answer, final) ∧
    final.items = [] ∧ final.scopes = opened ++ s.scopes
  one : call.opensScope = true → answer.isOk = true → ∃ scope, opened = [scope]
  nothing : (call.opensScope = true → answer.isOk = false) → opened = []

section OneCall

variable {setting : Setting} {s : Session} {call : Call} {tree : Node}

theorem comes_visit (idle : s.items = []) (well : tree.IsWellScoped) :
    Step.Comes s ((visit tree).step setting) s (tree.meaning setting none)
      (fun m => (none, s.leave m)) := by
  have comes := tree.comes_visit setting s (.inr well)
  have untested : s.items.head? = none := congrArg List.head? idle
  rw [untested] at comes
  rw [← bind_pure (tree.meaning setting none)]
  exact comes.bind fun m _ => rfl

theorem comes_evaluate (idle : s.items = []) (well : tree.IsWellScoped) :
    Step.Comes s ((evaluate tree).step setting) s (tree.valueAt setting none)
      (fun v => (some v, { s with current := none })) := by
  have comes := Step.comes_valueOf (tree.comes_visit setting s (.inr well))
  have untested : s.items.head? = none := congrArg List.head? idle
  rw [untested] at comes
  rw [← bind_pure (tree.valueAt setting none)]
  exact comes.bind fun v _ => rfl

/-- A failure leaves both stacks as they were, so it opens nothing. -/
theorem comesTo_error {β : Type} {e : EvalError} {view : Session → β → Option Value × Session}
    (fails : ∀ s : Session, s.items = [] →
      Step.Comes s (call.step setting) s (.error e) (view s)) :
    call.ComesTo setting (.error e) [] := by
  refine ⟨?_, by simp [Except.isOk, Except.toBool], fun _ => rfl⟩
  intro s idle
  obtain ⟨final, hrun, scopes, items⟩ := fails s idle
  exact ⟨final, hrun, items.trans idle, scopes⟩

theorem exists_comesTo_visit (setting : Setting) (well : tree.IsWellScoped) :
    ∃ answer opened, (visit tree).ComesTo setting answer opened := by
  have comes (s : Session) (idle : s.items = []) :
      Step.Comes s ((visit tree).step setting) s (tree.meaning setting none)
        (fun m => (none, s.leave m)) := comes_visit idle well
  cases meant : tree.meaning setting none with
  | error e =>
      rw [meant] at comes
      exact ⟨_, _, comesTo_error comes⟩
  | ok m =>
      rw [meant] at comes
      cases isScope : tree.isScope with
      | true =>
          obtain ⟨scope, rfl⟩ := Node.meaning_isScope isScope meant
          refine ⟨.ok none, [scope], ?_, fun _ _ => ⟨scope, rfl⟩, ?_⟩
          · intro s idle
            exact ⟨_, comes s idle, idle, rfl⟩
          · intro fails
            cases fails isScope
      | false =>
          obtain ⟨v, rfl⟩ := Node.meaning_isValue isScope meant
          refine ⟨.ok none, [], ?_, ?_, fun _ => rfl⟩
          · intro s idle
            exact ⟨_, comes s idle, idle, rfl⟩
          · intro opens
            exact absurd (isScope.symm.trans opens) Bool.false_ne_true

theorem exists_comesTo_evaluate (setting : Setting) (well : tree.IsWellScoped) :
    ∃ answer opened, (evaluate tree).ComesTo setting answer opened := by
  have comes (s : Session) (idle : s.items = []) :
      Step.Comes s ((evaluate tree).step setting) s (tree.valueAt setting none)
        (fun v => (some v, { s with current := none })) := comes_evaluate idle well
  cases value : tree.valueAt setting none with
  | error e =>
      rw [value] at comes
      exact ⟨_, _, comesTo_error comes⟩
  | ok v =>
      rw [value] at comes
      refine ⟨.ok (some v), [], ?_, ?_, fun _ => rfl⟩
      · intro s idle
        exact ⟨_, comes s idle, idle, rfl⟩
      · intro opens
        cases opens

theorem exists_comesTo (setting : Setting) (well : call.tree.IsWellScoped) :
    ∃ answer opened, call.ComesTo setting answer opened := by
  cases call with
  | visit tree => exact exists_comesTo_visit setting well
  | evaluate tree => exact exists_comesTo_evaluate setting well

/-- A session that has no element under test answers afresh, whatever else it has kept. -/
theorem answersAfresh (idle : s.items = []) (well : call.tree.IsWellScoped) :
    AnswersAfresh setting s call := by
  obtain ⟨answer, opened, comesTo⟩ := exists_comesTo setting well
  obtain ⟨final, hrun, items, scopes⟩ := comesTo.run s idle
  obtain ⟨alone, hfresh, -, opens⟩ := comesTo.run .fresh rfl
  rw [show Session.fresh.scopes = [] from rfl, List.append_nil] at opens
  have answered : call.answer setting s = answer := congrArg Prod.fst hrun
  have left : s.asked setting call = final := congrArg Prod.snd hrun
  have afresh : Session.fresh.asked setting call = alone := congrArg Prod.snd hfresh
  constructor
  · exact answered.trans (congrArg Prod.fst hfresh).symm
  · rw [left, items]
  · rw [left, afresh, opens, scopes]
  · intro opening success
    obtain ⟨scope, rfl⟩ := comesTo.one opening (answered ▸ success)
    exact ⟨scope, left ▸ scopes⟩
  · intro without
    rw [left, scopes, comesTo.nothing (answered ▸ without)]
    rfl

end OneCall

end Call

/-! ## Any number of calls -/

namespace Session

section Calls

variable {setting : Setting} {s : Session} {calls : List Call}

/-- No call leaves an element under test. -/
theorem items_used (well : ∀ call ∈ calls, call.tree.IsWellScoped) (idle : s.items = []) :
    (s.used setting calls).items = [] := by
  -- the session is that in front of the first call
  induction calls generalizing s with
  | nil => exact idle
  | cons call calls ih =>
      obtain ⟨first, rest⟩ := List.forall_mem_cons.mp well
      exact ih rest (Call.answersAfresh idle first).items_eq

/-- A session that has been used is as good as a fresh one. -/
theorem used_session_answers_afresh (well : ∀ call ∈ calls, call.tree.IsWellScoped) :
    (∀ call : Call, call.tree.IsWellScoped →
      AnswersAfresh setting (fresh.used setting calls) call) ∧
    ∀ tree : Node, tree.IsWellScoped →
      tree.valueIn setting (fresh.used setting calls) = tree.valueIn setting .fresh := by
  have idle : (fresh.used setting calls).items = [] := items_used well rfl
  refine ⟨fun call => Call.answersAfresh idle, ?_⟩
  intro tree isWellScoped
  rw [Node.valueIn_eq (.inr isWellScoped), Node.valueIn_eq (.inl rfl), idle]
  rfl

end Calls

/-- Orders with their lines, the last of which has no price, and an owner who has no name. -/
def orders : Setting :=
  let line (price : Value) : Value := .object [("price", price)]
  let order (lines : List Value) : Value := .object [("lines", .array lines)]
  ⟨.standard, .ofEntries [
    ("orders", .array [order [line (.integer 1)], order [line (.integer 2), .object []]]),
    ("owner", .object [])]⟩

/-- `$.owner` -/
def owner : Node := .object .globalScope "owner"

/-- `$.owner.name.first` -/
def firstName : Node := .field (.object owner "name") "first"

/-- `$.orders[*][?(@.lines[*][?(@.price > limit)])]` -/
def dearerThan (limit : Integer) : Node :=
  .collection (.object .globalScope "orders") (.collection (.object .item "lines")
    (.between (.field .item "price") .greaterThan (.literal (.integer limit))))

/-- A scope is opened and kept. Then a path leads nowhere half-way, and a test fails at the last line
of the last order. -/
def troubles : List Call := [.visit owner, .evaluate firstName, .visit (dearerThan 5)]

/-- After these troubles the scope that was asked for is open, and another test succeeds. -/
theorem used_session_answers_afresh_troubles :
    (∀ call ∈ troubles, call.tree.IsWellScoped) ∧
      (Call.evaluate firstName).answer orders (fresh.asked orders (.visit owner)) =
        .error (.keyNotFound "$.owner.name") ∧
      (Call.visit (dearerThan 5)).answer orders (fresh.used orders (troubles.take 2)) =
        .error (.keyNotFound "@.price") ∧
      AnswersAfresh orders (fresh.used orders troubles) (.evaluate (dearerThan 5)) ∧
      (dearerThan 1).valueIn orders (fresh.used orders troubles) = .ok (.boolean true) := by
  have well : ∀ call ∈ troubles, call.tree.IsWellScoped := by
    simp [troubles, Call.tree, owner, firstName, dearerThan, Node.between, Node.literal,
      Node.IsWellScoped, Node.IsChain]
  obtain ⟨calls, values⟩ := used_session_answers_afresh well
  refine ⟨well, rfl, rfl, calls _ (well (.visit (dearerThan 5)) (by simp [troubles])), ?_⟩
  rw [values (dearerThan 1) (well (.visit (dearerThan 5)) (by simp [troubles]))]
  rfl

end Session

end DataFilter
