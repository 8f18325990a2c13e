import DataFilter.Proofs.Evaluation.Visiting

/-!
# Collection tests as quantifiers

A collection test asks whether some element satisfies the predicate, `Node.all` whether every one
does. Of answers that may be unknown, one that is true decides the first and one that is false the
second, and else an unknown one leaves them unknown. So neither depends on the order of the elements
or on how often one occurs.

The elements are tested one after the other. What carries the proofs is `someMatch_append`: the
answers to the elements at the front either decide the test or are joined into one, with which the
test goes on. So an answer that is no truth value is the failure of the test, unless an element in
front of it has decided.
-/

namespace DataFilter

/-! ## Many truth values -/

namespace Truth

/-- Whether one of the truth values is true. -/
def any (answers : List Truth) : Truth :=
  if some true ∈ answers then some true else if none ∈ answers then none else some false

/-- Whether all of the truth values are true. -/
def all (answers : List Truth) : Truth :=
  if some false ∈ answers then some false else if none ∈ answers then none else some true

theorem any_cons (t : Truth) (answers : List Truth) : any (t :: answers) = or t (any answers) := by
  unfold any
  rcases t with _ | _ | _ <;> simp only [List.mem_cons, reduceCtorEq, Option.some.injEq,
    Bool.true_eq_false, false_or, true_or, if_true]
  · split
    · rfl
    · split <;> rfl
  · split
    · rfl
    · split <;> rfl
  · rfl

theorem or_assoc (a b c : Truth) : or (or a b) c = or a (or b c) := by
  rcases a with _ | _ | _ <;> rcases b with _ | _ | _ <;> rcases c with _ | _ | _ <;> rfl

theorem or_false (a : Truth) : or a (some false) = a := by
  rcases a with _ | _ | _ <;> rfl

theorem false_or (a : Truth) : or (some false) a = a := by
  rcases a with _ | _ | _ <;> rfl

theorem any_eq_true_iff {answers : List Truth} : any answers = some true ↔ some true ∈ answers := by
  unfold any
  split
  · simp [*]
  · split <;> simp [*]

/-- What is known among the negations are the opposites of what is known. -/
theorem some_mem_map_not {answers : List Truth} {b : Bool} :
    some b ∈ answers.map not ↔ some (!b) ∈ answers := by
  rw [List.mem_map]
  constructor
  · rintro ⟨t, member, negated⟩
    rcases t with _ | c
    · cases negated
    · cases negated
      simpa using member
  · intro member
    exact ⟨some !b, member, by simp [not]⟩

/-- Every answer is true if none of their negations is. -/
theorem not_any_map_not (answers : List Truth) : not (any (answers.map not)) = all answers := by
  have unknown : none ∈ answers.map not ↔ none ∈ answers := by
    rw [List.mem_map]
    constructor
    · rintro ⟨t, member, negated⟩
      rcases t with _ | c
      · exact member
      · cases negated
    · intro member
      exact ⟨none, member, rfl⟩
  simp only [any, all, some_mem_map_not, unknown, Bool.not_true]
  split
  · rfl
  · split <;> rfl

/-- Only what occurs among the answers counts. -/
theorem any_congr {answers others : List Truth} (same : ∀ t, t ∈ others ↔ t ∈ answers) :
    any others = any answers := by
  simp only [any, same]

theorem all_congr {answers others : List Truth} (same : ∀ t, t ∈ others ↔ t ∈ answers) :
    all others = all answers := by
  simp only [all, same]

/-- The failure that an answer is: its own, or that of an operator that refuses a value which is
neither true nor false nor unknown. -/
def fault? (refuse : Value → OperatorError) : Except EvalError Value → Option EvalError
  | .error e => some e
  | .ok v =>
    match ofValue? v with
    | some _ => none
    | none => some (.operator (refuse v))

end Truth

/-! ## Joining answers -/

namespace Node

section Joined

variable {table : OperatorTable} {test : Value → Except EvalError Value} {answer : Value → Truth}
  {front : List Value}

/-- Joining an answer that is a truth value: the test ends with one that is true, and goes on with
any other. -/
theorem someMatch_cons {outcome t : Truth} {element : Value} (h : test element = .ok t.toValue)
    (rest : List Value) :
    someMatch table test outcome.toValue (element :: rest) =
      if outcome.or t = some true then .ok (.boolean true)
      else someMatch table test (outcome.or t).toValue rest := by
  have joined : table.applyBinary outcome.toValue .or t.toValue = .ok (outcome.or t).toValue := by
    rw [OperatorTable.applyBinary, if_pos (.inr rfl), OperatorTable.logical,
      Truth.ofValue?_toValue, Truth.ofValue?_toValue]
    rfl
  rw [someMatch, h]
  show (table.applyBinary outcome.toValue .or t.toValue).mapError EvalError.operator >>= _ = _
  rw [joined]
  rcases outcome.or t with _ | _ | _ <;> rfl

/-- The answers at the front decide a test, or they are joined into one and the test goes on. -/
theorem someMatch_append (known : ∀ element ∈ front, test element = .ok (answer element).toValue)
    {outcome : Truth} (start : outcome ≠ some true) (rest : List Value) :
    someMatch table test outcome.toValue (front ++ rest) =
      if outcome.or (Truth.any (front.map answer)) = some true then .ok (.boolean true)
      else someMatch table test (outcome.or (Truth.any (front.map answer))).toValue rest := by
  induction front generalizing outcome with
  | nil =>
      have none_joined : outcome.or (Truth.any []) = outcome := outcome.or_false
      rw [List.map_nil, none_joined, if_neg start]
      rfl
  | cons element front ih =>
      obtain ⟨first, others⟩ := List.forall_mem_cons.mp known
      rw [List.cons_append, someMatch_cons first, List.map_cons, Truth.any_cons, ← Truth.or_assoc]
      by_cases decided : outcome.or (answer element) = some true
      · rw [if_pos decided, decided]
        rfl
      · rw [if_neg decided]
        exact ih others decided

variable (known : ∀ element ∈ front, test element = .ok (answer element).toValue)
include known

theorem someMatch_front (table : OperatorTable) (rest : List Value) :
    someMatch table test (.boolean false) (front ++ rest) =
      if Truth.any (front.map answer) = some true then .ok (.boolean true)
      else someMatch table test (Truth.any (front.map answer)).toValue rest := by
  have undecided : (some false : Truth) ≠ some true := nofun
  have joined : someMatch table test (Truth.toValue (some false)) (front ++ rest) = _ :=
    someMatch_append known undecided rest
  rw [Truth.false_or] at joined
  exact joined

/-- Where all answers are known to be truth values, they are joined. -/
theorem someMatch_eq :
    someMatch table test (.boolean false) front = .ok (Truth.any (front.map answer)).toValue := by
  have joined := someMatch_front known table []
  rw [List.append_nil] at joined
  rw [joined]
  split
  · rename_i decided
    rw [decided]
    rfl
  · rfl

/-- An element that satisfies the predicate decides, whatever stands behind it. -/
theorem someMatch_of_true (holds : some true ∈ front.map answer) (back : List Value) :
    someMatch table test (.boolean false) (front ++ back) = .ok (.boolean true) := by
  rw [someMatch_front known, if_pos (Truth.any_eq_true_iff.mpr holds)]

/-- The first answer that is no truth value is a failure, if nothing in front of it has decided. -/
theorem someMatch_of_fault (undecided : some true ∉ front.map answer) {element : Value}
    {error : EvalError}
    (fault : Truth.fault? (fun v =>
      .unsupported .or (Truth.any (front.map answer)).toValue.typeName v.typeName) (test element) =
        some error) (back : List Value) :
    someMatch table test (.boolean false) (front ++ element :: back) = .error error := by
  rw [someMatch_front known, if_neg (mt Truth.any_eq_true_iff.mp undecided)]
  generalize Truth.any (front.map answer) = outcome at fault
  unfold someMatch
  cases answered : test element with
  | error e =>
      rw [answered] at fault
      cases fault
      rfl
  | ok v =>
      rw [answered] at fault
      cases truth : Truth.ofValue? v with
      | some t =>
          simp only [Truth.fault?, truth] at fault
          cases fault
      | none =>
          simp only [Truth.fault?, truth] at fault
          cases fault
          show (table.applyBinary outcome.toValue .or v).mapError EvalError.operator >>= _ = _
          rw [OperatorTable.applyBinary, if_pos (.inr rfl), OperatorTable.logical,
            Truth.ofValue?_toValue, truth]
          rfl

end Joined

end Node

/-! ## Negated answers -/

/-- The table has the rule of the language for `NOT`. -/
def OperatorTable.NegatesAsUsual (table : OperatorTable) : Prop :=
  table.unary .not = standard.unary .not

namespace Node

/-- An answer, negated. -/
def negated (table : OperatorTable) (answer : Except EvalError Value) : Except EvalError Value := do
  let v ← answer
  (table.applyUnary .not v).mapError .operator

theorem valueAt_not (setting : Setting) (element : Option Value) (operand : Node) :
    (not operand).valueAt setting element =
      negated setting.table (operand.valueAt setting element) :=
  valueAt_prefixed setting element .not operand _

section Negated

variable {table : OperatorTable} (usual : table.NegatesAsUsual)
include usual

theorem negated_toValue (t : Truth) : negated table (.ok t.toValue) = .ok t.not.toValue := by
  rcases t with _ | b
  · rfl
  · show (table.applyUnary .not (.boolean b)).mapError EvalError.operator = _
    rw [OperatorTable.applyUnary, usual]
    rfl

/-- Negation keeps failures, and fails on what is no truth value. -/
theorem negated_of_fault {answer : Except EvalError Value} {error : EvalError}
    (fault : Truth.fault? (fun v => .unsupportedUnary .not v.typeName) answer = some error) :
    negated table answer = .error error := by
  cases answer with
  | error e =>
      cases fault
      rfl
  | ok v =>
      cases v with
      | null => cases fault
      | boolean b => cases fault
      | _ =>
          cases fault
          show (table.applyUnary .not _).mapError EvalError.operator = _
          rw [OperatorTable.applyUnary, usual]
          rfl

end Negated

end Node

/-! ## Collection tests in a session -/

/-- A session in which an element is under test. -/
def Session.within (s : Session) (element : Value) : Session :=
  { s with items := element :: s.items }

namespace Node

/-- The value that a session comes to at a tree. -/
def valueIn (setting : Setting) (s : Session) (tree : Node) : Except EvalError Value :=
  ((tree.evaluate setting).run s).1

/-- The session finds these elements at the parent of a collection test: those of an array, or none
at NULL. No other scope is open, or the test is well-scoped. -/
structure Collects (setting : Setting) (s : Session) (parent predicate : Node)
    (items : List Value) : Prop where
  only : s.scopes = [] ∨ (collection parent predicate).IsWellScoped
  opens : ∃ scope, (parent.visit setting).run s = (.ok (), s.leave (.scope scope)) ∧
    (scope.get setting elementsName = .ok (some (.array items)) ∨
      scope = .nested .null ∧ items = [])

section Values

variable {setting : Setting} {s : Session} {parent predicate : Node} {items : List Value}

/-- A session comes to the meaning of a tree. -/
theorem valueIn_eq {tree : Node} (only : s.scopes = [] ∨ tree.IsWellScoped) :
    tree.valueIn setting s = tree.valueAt setting s.items.head? :=
  tree.evaluate_eq setting s only

theorem valueIn_not {tree : Node} (only : s.scopes = [] ∨ tree.IsWellScoped) :
    (not tree).valueIn setting s = negated setting.table (tree.valueIn setting s) := by
  have negation : (not tree).valueIn setting s = (not tree).valueAt setting s.items.head? :=
    valueIn_eq only
  rw [negation, valueIn_eq only, valueAt_not]

/-- A collection test joins the answers to the elements of the scope that its parent means. -/
theorem valueIn_collection_of_meaning
    (only : s.scopes = [] ∨ (collection parent predicate).IsWellScoped) {scope : Scope}
    (meant : parent.meaning setting s.items.head? = .ok (.scope scope)) :
    (collection parent predicate).valueIn setting s =
      parent.elementsOf setting scope >>=
        someMatch setting.table (fun element => predicate.valueIn setting (s.within element))
          (.boolean false) := by
  have answers (element : Value) : predicate.valueIn setting (s.within element) =
      predicate.valueAt setting (some element) :=
    valueIn_eq (only.imp_right fun well => well.2)
  have tested : (collection parent predicate).meaning setting s.items.head? = (do
      let outcome ← parent.elementsOf setting scope >>=
        someMatch setting.table (fun element => predicate.valueAt setting (some element))
          (.boolean false)
      return Meaning.value outcome) := by
    rw [meaning, meant]
    show (parent.elementsOf setting scope >>= _) = (parent.elementsOf setting scope >>= _) >>= _
    cases parent.elementsOf setting scope <;> rfl
  simp only [answers]
  rw [valueIn_eq only, valueAt, tested]
  exact toValue_value _ _

namespace Collects

/-- The elements that are found are those that the test goes through. -/
theorem elementsOf_eq (h : Collects setting s parent predicate items) :
    ∃ scope, parent.meaning setting s.items.head? = .ok (.scope scope) ∧
      parent.elementsOf setting scope = .ok items := by
  obtain ⟨scope, visited, found⟩ := h.opens
  have comes := parent.comes_visit setting s (h.only.imp_right fun well => well.1.isWellScoped)
  refine ⟨scope, ?_, ?_⟩
  · cases meant : parent.meaning setting s.items.head? with
    | error e =>
        rw [meant] at comes
        obtain ⟨final, failed, -⟩ := comes
        rw [visited] at failed
        cases failed
    | ok m =>
        rw [meant] at comes
        have same : s.leave (.scope scope) = s.leave m :=
          congrArg Prod.snd (visited.symm.trans comes)
        cases m with
        | scope other =>
            obtain ⟨rfl, -⟩ := List.cons.inj (congrArg Session.scopes same)
            rfl
        | value v =>
            have longer := congrArg (fun s => s.scopes.length) same
            simp [Session.leave] at longer
  · rcases found with array | ⟨rfl, rfl⟩
    · rw [elementsOf, array]
      rfl
    · rfl

/-- A collection test joins the answers to the elements that are found. -/
theorem valueIn_collection (h : Collects setting s parent predicate items) :
    (collection parent predicate).valueIn setting s =
      someMatch setting.table (fun element => predicate.valueIn setting (s.within element))
        (.boolean false) items := by
  obtain ⟨scope, meant, found⟩ := h.elementsOf_eq
  rw [valueIn_collection_of_meaning h.only meant, found]
  rfl

/-- What `all` tests is that no element fails the predicate. -/
theorem valueIn_all (h : Collects setting s parent predicate items) :
    (all parent predicate).valueIn setting s = negated setting.table
      (someMatch setting.table
        (fun element => negated setting.table (predicate.valueIn setting (s.within element)))
        (.boolean false) items) := by
  have others : Collects setting s parent (not predicate) items := ⟨h.only, h.opens⟩
  have answers (element : Value) : (not predicate).valueIn setting (s.within element) =
      negated setting.table (predicate.valueIn setting (s.within element)) :=
    valueIn_not (h.only.imp_right fun well => well.2)
  rw [all, valueIn_not others.only, others.valueIn_collection]
  simp only [answers]

end Collects

/-- The answers of the predicate to these elements, all of which are truth values. -/
def Answers (setting : Setting) (s : Session) (predicate : Node) (answer : Value → Truth)
    (items : List Value) : Prop :=
  ∀ element ∈ items, predicate.valueIn setting (s.within element) = .ok (answer element).toValue

theorem Answers.negated (usual : setting.table.NegatesAsUsual) {answer : Value → Truth}
    (known : Answers setting s predicate answer items) :
    ∀ element ∈ items, negated setting.table (predicate.valueIn setting (s.within element)) =
      .ok ((Truth.not ∘ answer) element).toValue := by
  intro element member
  rw [known element member]
  exact negated_toValue usual (answer element)

namespace Collects

variable {answer : Value → Truth} {front back : List Value} {element : Value} {error : EvalError}

theorem collection_eq (h : Collects setting s parent predicate items)
    (known : Answers setting s predicate answer items) :
    (collection parent predicate).valueIn setting s =
      .ok (Truth.any (items.map answer)).toValue := by
  rw [h.valueIn_collection]
  exact someMatch_eq known

theorem collection_of_true (h : Collects setting s parent predicate (front ++ back))
    (known : Answers setting s predicate answer front) (holds : some true ∈ front.map answer) :
    (collection parent predicate).valueIn setting s = .ok (.boolean true) := by
  rw [h.valueIn_collection]
  exact someMatch_of_true known holds back

theorem collection_of_fault (h : Collects setting s parent predicate (front ++ element :: back))
    (known : Answers setting s predicate answer front) (undecided : some true ∉ front.map answer)
    (fault : Truth.fault? (fun v =>
      .unsupported .or (Truth.any (front.map answer)).toValue.typeName v.typeName)
        (predicate.valueIn setting (s.within element)) = some error) :
    (collection parent predicate).valueIn setting s = .error error := by
  rw [h.valueIn_collection]
  exact someMatch_of_fault known undecided fault back

variable (usual : setting.table.NegatesAsUsual)
include usual

theorem all_eq (h : Collects setting s parent predicate items)
    (known : Answers setting s predicate answer items) :
    (all parent predicate).valueIn setting s = .ok (Truth.all (items.map answer)).toValue := by
  rw [h.valueIn_all, someMatch_eq (known.negated usual), negated_toValue usual,
    ← Truth.not_any_map_not, List.map_map]

theorem all_of_false (h : Collects setting s parent predicate (front ++ back))
    (known : Answers setting s predicate answer front) (fails : some false ∈ front.map answer) :
    (all parent predicate).valueIn setting s = .ok (.boolean false) := by
  have holds : some true ∈ front.map (Truth.not ∘ answer) := by
    rw [← List.map_map]
    exact Truth.some_mem_map_not.mpr fails
  rw [h.valueIn_all, someMatch_of_true (known.negated usual) holds]
  exact negated_toValue usual (some true)

theorem all_of_fault (h : Collects setting s parent predicate (front ++ element :: back))
    (known : Answers setting s predicate answer front) (undecided : some false ∉ front.map answer)
    (fault : Truth.fault? (fun v => .unsupportedUnary .not v.typeName)
      (predicate.valueIn setting (s.within element)) = some error) :
    (all parent predicate).valueIn setting s = .error error := by
  have none_holds : some true ∉ front.map (Truth.not ∘ answer) := by
    rw [← List.map_map]
    exact mt Truth.some_mem_map_not.mp undecided
  have failed : negated setting.table (predicate.valueIn setting (s.within element)) =
      .error error := negated_of_fault usual fault
  have stopped : someMatch setting.table
      (fun element => negated setting.table (predicate.valueIn setting (s.within element)))
      (.boolean false) (front ++ element :: back) = .error error := by
    apply someMatch_of_fault (known.negated usual) none_holds
    rw [failed]
    rfl
  rw [h.valueIn_all, stopped]
  rfl

end Collects

/-- A collection test is an existential statement in three truth values, and `all` its dual. Where
the predicate has truth values on all elements, the test is true if one of them is, else unknown if
one of them is, else false; and `all` is false if one of them is, else unknown if one of them is,
else true. So both are the same on other elements, of the same document or of another one, if these
are the same up to their order and number. In general an element that decides does so whatever
stands behind it, and else the first element without a truth value is the failure. -/
theorem collection_tests_quantify (h : Collects setting s parent predicate items)
    (usual : setting.table.NegatesAsUsual) (answer : Value → Truth) :
    (Answers setting s predicate answer items →
      (collection parent predicate).valueIn setting s =
        .ok (Truth.any (items.map answer)).toValue ∧
      (all parent predicate).valueIn setting s = .ok (Truth.all (items.map answer)).toValue ∧
      ∀ context' s' parent' items', Collects ⟨setting.table, context'⟩ s' parent' predicate items' →
        Answers ⟨setting.table, context'⟩ s' predicate answer items' →
        (∀ element, element ∈ items' ↔ element ∈ items) →
        (collection parent' predicate).valueIn ⟨setting.table, context'⟩ s' =
          (collection parent predicate).valueIn setting s ∧
        (all parent' predicate).valueIn ⟨setting.table, context'⟩ s' =
          (all parent predicate).valueIn setting s) ∧
    (∀ front back, items = front ++ back → Answers setting s predicate answer front →
      (some true ∈ front.map answer →
        (collection parent predicate).valueIn setting s = .ok (.boolean true)) ∧
      (some false ∈ front.map answer →
        (all parent predicate).valueIn setting s = .ok (.boolean false))) ∧
    (∀ front element back error, items = front ++ element :: back →
      Answers setting s predicate answer front →
      (some true ∉ front.map answer →
        Truth.fault? (fun v =>
          .unsupported .or (Truth.any (front.map answer)).toValue.typeName v.typeName)
          (predicate.valueIn setting (s.within element)) = some error →
        (collection parent predicate).valueIn setting s = .error error) ∧
      (some false ∉ front.map answer →
        Truth.fault? (fun v => .unsupportedUnary .not v.typeName)
          (predicate.valueIn setting (s.within element)) = some error →
        (all parent predicate).valueIn setting s = .error error)) := by
  refine ⟨?_, ?_, ?_⟩
  · intro known
    refine ⟨h.collection_eq known, h.all_eq usual known, ?_⟩
    intro context' s' parent' items' h' known' same
    have usual' : (Setting.mk setting.table context').table.NegatesAsUsual := usual
    have answers (t : Truth) : t ∈ items'.map answer ↔ t ∈ items.map answer := by
      simp only [List.mem_map, same]
    constructor
    · rw [h'.collection_eq known', h.collection_eq known, Truth.any_congr answers]
    · rw [h'.all_eq usual' known', h.all_eq usual known, Truth.all_congr answers]
  · rintro front back rfl known
    exact ⟨h.collection_of_true known, h.all_of_false usual known⟩
  · rintro front element back error rfl known
    exact ⟨h.collection_of_fault known, h.all_of_fault usual known⟩

end Values

/-- Elements with these values under the name `ok`. -/
def reports (values : List Value) : List Value := values.map fun v => .object [("ok", v)]

/-- A document with such elements. -/
def reporting (values : List Value) : Setting :=
  ⟨.standard, .ofEntries [("reports", .array (reports values))]⟩

/-- `$.reports` -/
def reportsScope : Node := .object .globalScope "reports"

/-- `@.ok` -/
def okField : Node := .field .item "ok"

/-- An element that satisfies a test does so in front of a number as well, which keeps `all` from a
value. Without the number `all` is unknown, in either order of the others. -/
theorem collection_tests_quantify_reports :
    (collection reportsScope okField).valueIn
        (reporting [.null, .boolean true, .integer 5]) .fresh = .ok (.boolean true) ∧
      (all reportsScope okField).valueIn (reporting [.null, .boolean true, .integer 5]) .fresh =
        .error (.operator (.unsupportedUnary .not "integer")) ∧
      (all reportsScope okField).valueIn (reporting [.null, .boolean true]) .fresh = .ok .null ∧
      (all reportsScope okField).valueIn (reporting [.boolean true, .null]) .fresh = .ok .null := by
  have collects (values : List Value) :
      Collects (reporting values) .fresh reportsScope okField (reports values) :=
    ⟨.inl rfl, .nested (.array (reports values)), rfl, .inl rfl⟩
  let answer (element : Value) : Truth := ((element.get? "ok").bind Truth.ofValue?).getD none
  have front : Answers (reporting [.null, .boolean true, .integer 5]) .fresh okField answer
      (reports [.null, .boolean true]) := by
    simp only [reports, List.map_cons, List.map_nil]
    rintro element (_ | ⟨_, _ | ⟨_, ⟨⟩⟩⟩) <;> rfl
  have few : Answers (reporting [.null, .boolean true]) .fresh okField answer
      (reports [.null, .boolean true]) := front
  have turned : Answers (reporting [.boolean true, .null]) .fresh okField answer
      (reports [.boolean true, .null]) := by
    simp only [reports, List.map_cons, List.map_nil]
    rintro element (_ | ⟨_, _ | ⟨_, ⟨⟩⟩⟩) <;> rfl
  obtain ⟨-, decided, failed⟩ := collection_tests_quantify
    (collects [.null, .boolean true, .integer 5]) rfl answer
  obtain ⟨known, -, -⟩ := collection_tests_quantify (collects [.null, .boolean true]) rfl answer
  obtain ⟨-, unknown, alike⟩ := known few
  have swapped := alike _ _ _ _ (collects [.boolean true, .null]) turned (by
    intro element
    simp [reports, or_comm])
  refine ⟨?_, ?_, unknown, swapped.2.trans unknown⟩
  · exact (decided _ (reports [.integer 5]) rfl front).1 (.tail _ (.head _))
  · exact (failed _ _ [] _ rfl front).2 (by decide) rfl

end Node

end DataFilter
