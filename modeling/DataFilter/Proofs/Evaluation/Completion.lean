import DataFilter.Proofs.Evaluation.Visiting
import DataFilter.Proofs.Operation.Table
import Mathlib.Data.List.Forall2
import Mathlib.Data.Option.Basic

/-!
# What is decided stays decided

NULL stands for something that is not known. Where more becomes known, scalars take the place of
NULLs, and a tree may come to have a value where it was unknown. But a value that was known before
has not depended on what became known: it persists. The null tests are an exception, since they ask
for just that.

Both runs are followed side by side. The second one visits no more than the first: what decided
`AND` or `OR` or satisfied a test persists, so that everything the second run meets is the
completion of something that the first run has met.
-/

namespace DataFilter

/-! ## Completing values -/

namespace Value

/-- A value that is known and has no parts: a boolean, a number, a text, or a point or span of
time. -/
def isScalar : Value → Bool
  | boolean _ | integer _ | float _ | decimal _ | text _ | instant _ | duration _ => true
  | null | array _ | object _ | custom _ => false

/-- The second value is the first one with scalars in the place of some NULLs, at any depth. -/
inductive IsCompletedBy : Value → Value → Prop where
  | same (v : Value) : IsCompletedBy v v
  | unknown {v : Value} (scalar : v.isScalar = true) : IsCompletedBy .null v
  | array {items items' : List Value} (each : List.Forall₂ IsCompletedBy items items') :
      IsCompletedBy (.array items) (.array items')
  | object {entries entries' : List (String × Value)}
      (names : entries.map Prod.fst = entries'.map Prod.fst)
      (each : List.Forall₂ IsCompletedBy (entries.map Prod.snd) (entries'.map Prod.snd)) :
      IsCompletedBy (.object entries) (.object entries')

/-- What is known of the first value is kept by the second one. -/
def Persists (v v' : Value) : Prop := v ≠ .null → v.IsCompletedBy v'

/-- A value without parts that is known has no completion but itself. -/
theorem IsCompletedBy.eq_of_known {v v' : Value} (h : v.IsCompletedBy v') (known : v ≠ .null)
    (flat : v.type.isNested = false) : v' = v := by
  cases h with
  | same => rfl
  | unknown => exact absurd rfl known
  | array => cases flat
  | object => cases flat

@[simp]
theorem persists_boolean_iff {b : Bool} {v' : Value} :
    (boolean b).Persists v' ↔ v' = boolean b := by
  constructor
  · intro h
    exact (h nofun).eq_of_known nofun rfl
  · rintro rfl _
    exact .same _

@[simp]
theorem null_persists (v' : Value) : null.Persists v' := by
  intro known
  exact absurd rfl known

end Value

/-- A truth value persists if it is unknown, or stays what it is. -/
theorem Truth.persists_iff {a a' : Truth} :
    a.toValue.Persists a'.toValue ↔ a = none ∨ a' = a := by
  rcases a with _ | b
  · simp [Truth.toValue]
  · rcases a' with _ | b' <;> simp [Truth.toValue]

/-! ## Reading names -/

/-- Completed values are found under the same names. -/
theorem Entries.get?_completed {entries entries' : Entries Value}
    (names : entries.map Prod.fst = entries'.map Prod.fst)
    (each : List.Forall₂ Value.IsCompletedBy (entries.map Prod.snd) (entries'.map Prod.snd))
    (name : String) :
    Option.Rel Value.IsCompletedBy (entries.get? name) (entries'.get? name) := by
  induction entries generalizing entries' with
  | nil =>
      cases entries' with
      | nil => exact .none
      | cons entry' rest' => cases names
  | cons entry rest ih =>
      cases entries' with
      | nil => cases names
      | cons entry' rest' =>
          obtain ⟨first, others⟩ := List.cons.inj names
          obtain ⟨completed, behind⟩ := List.forall₂_cons.mp each
          rw [Entries.get?_cons, Entries.get?_cons, ← first]
          by_cases found : name = entry.1
          · rw [if_pos found, if_pos found]
            exact .some completed
          · rw [if_neg found, if_neg found]
            exact ih others behind

theorem Value.IsCompletedBy.get? {v v' : Value} (h : v.IsCompletedBy v') (name : String) :
    Option.Rel Value.IsCompletedBy (v.get? name) (v'.get? name) := by
  cases h with
  | same =>
      cases v.get? name with
      | none => exact .none
      | some u => exact .some (.same u)
  | unknown scalar =>
      -- a scalar knows no names, and neither does NULL
      cases v' <;> first | exact .none | cases scalar
  | array each =>
      unfold Value.get?
      by_cases all : name = elementsName
      · rw [if_pos all, if_pos all]
        exact .some (.array each)
      · rw [if_neg all, if_neg all]
        exact .none
  | object names each => exact Entries.get?_completed names each name

/-- Where both contexts answer, the second one answers what the first one does, completed. -/
def Context.IsCompletedBy (context context' : Context) : Prop :=
  ∀ name answer answer', context.get name = .ok answer → context'.get name = .ok answer' →
    Option.Rel Value.IsCompletedBy answer answer'

/-- Documents are contexts, and completed documents are completed contexts. -/
theorem Context.isCompletedBy_ofValue {document document' : Value}
    (h : document.IsCompletedBy document') :
    (Context.ofValue document).IsCompletedBy (.ofValue document') := by
  rintro name _ _ ⟨⟩ ⟨⟩
  exact h.get? name

/-- The second scope is the first one, completed. -/
def Scope.IsCompletedBy : Scope → Scope → Prop
  | document, document => True
  | nested v, nested v' => v.IsCompletedBy v'
  | _, _ => False

/-- What is known of the first meaning is kept by the second one. -/
def Meaning.Persists : Meaning → Meaning → Prop
  | scope s, scope s' => s.IsCompletedBy s'
  | value v, value v' => v.Persists v'
  | _, _ => False

section Reading

variable {context context' : Context} {scope scope' : Scope}

theorem Scope.IsCompletedBy.get (h : scope.IsCompletedBy scope')
    (completed : context.IsCompletedBy context') {name : String} {answer answer' : Option Value}
    (first : scope.get ⟨.standard, context⟩ name = .ok answer)
    (second : scope'.get ⟨.standard, context'⟩ name = .ok answer') :
    Option.Rel Value.IsCompletedBy answer answer' := by
  cases scope with
  | document =>
      cases scope' with
      | document => exact completed name answer answer' first second
      | nested v' => cases h
  | nested v =>
      cases scope' with
      | document => cases h
      | nested v' =>
          cases first
          cases second
          exact Value.IsCompletedBy.get? h name

/-- The elements of a completed collection are completed one by one. -/
theorem Node.elementsOf_completed {parent : Node} (h : scope.IsCompletedBy scope')
    (completed : context.IsCompletedBy context') {items items' : List Value}
    (first : parent.elementsOf ⟨.standard, context⟩ scope = .ok items)
    (second : parent.elementsOf ⟨.standard, context'⟩ scope' = .ok items') :
    List.Forall₂ Value.IsCompletedBy items items' := by
  obtain ⟨answer, hanswer, found⟩ := bind_eq_ok first
  obtain ⟨answer', hanswer', found'⟩ := bind_eq_ok second
  have answers := h.get completed hanswer hanswer'
  cases answers with
  | none =>
      -- only NULL answers nothing and is a collection, and then both have no elements
      cases scope with
      | document => cases found
      | nested v =>
          cases scope' with
          | document => cases found'
          | nested v' =>
              cases v <;> cases found
              cases v' <;> cases found'
              exact .nil
  | @some array array' each =>
      cases each with
      | same =>
          obtain rfl : items = items' := by cases array <;> cases found; cases found'; rfl
          exact List.forall₂_same.mpr fun v _ => .same v
      | unknown => cases found
      | array each =>
          cases found
          cases found'
          exact each
      | object => cases found

end Reading

/-! ## Operators -/

section Operators

variable {op : Operator} {l l' r r' u u' v v' : Value}

/-- The tables of `AND` and `OR` decide nothing by an operand that is unknown. -/
theorem junction_persists {a a' b b' : Truth} (left : a = none ∨ a' = a)
    (right : b = none ∨ b' = b) : junction op a b = none ∨ junction op a' b' = junction op a b := by
  unfold junction
  by_cases conjunction : op = .and
  · rw [if_pos conjunction, if_pos conjunction]
    rcases left with rfl | rfl <;> rcases right with rfl | rfl
    · exact .inl rfl
    · rcases a' with _ | _ | _ <;> rcases b' with _ | _ | _ <;> simp [Truth.and]
    · rcases a' with _ | _ | _ <;> rcases b' with _ | _ | _ <;> simp [Truth.and]
    · exact .inr rfl
  · rw [if_neg conjunction, if_neg conjunction]
    rcases left with rfl | rfl <;> rcases right with rfl | rfl
    · exact .inl rfl
    · rcases a' with _ | _ | _ <;> rcases b' with _ | _ | _ <;> simp [Truth.or]
    · rcases a' with _ | _ | _ <;> rcases b' with _ | _ | _ <;> simp [Truth.or]
    · exact .inr rfl

/-- A binary operator keeps what is known if its operands do. -/
theorem applyBinary_persists (left : l.Persists l') (right : r.Persists r')
    (first : OperatorTable.standard.applyBinary l op r = .ok v)
    (second : OperatorTable.standard.applyBinary l' op r' = .ok v') : v.Persists v' := by
  by_cases joins : op = .and ∨ op = .or
  · obtain ⟨a, b, rfl, rfl, rfl⟩ := applyBinary_eq_ok_of_joins joins first
    obtain ⟨a', b', rfl, rfl, rfl⟩ := applyBinary_eq_ok_of_joins joins second
    rw [Truth.persists_iff] at left right ⊢
    exact junction_persists left right
  · rcases OperatorTable.applyBinary_eq_ok_of_strict joins first with
      rfl | ⟨⟨knownLeft, knownRight⟩, flatLeft, flatRight⟩
    · exact Value.null_persists v'
    · -- known operands without parts are the same in both runs, and so is the value
      obtain rfl := (left knownLeft).eq_of_known knownLeft flatLeft
      obtain rfl := (right knownRight).eq_of_known knownRight flatRight
      obtain rfl : v = v' := Except.ok.inj (first.symm.trans second)
      intro _
      exact .same v

/-- An operand that comes to decide keeps what is known without the other operand. -/
theorem applyBinary_persists_of_decides (decided : Step.decides op l' = true)
    (left : l.Persists l') (first : OperatorTable.standard.applyBinary l op r = .ok v) :
    v.Persists l' := by
  -- with the operand of the first run the second one would have come to the same
  have second : OperatorTable.standard.applyBinary l' op r = .ok l' := by
    unfold Step.decides at decided
    split at decided
    · obtain ⟨a, b, -, rfl, -⟩ := applyBinary_eq_ok_of_joins (.inl rfl) first
      rcases b with _ | _ | _ <;> rfl
    · obtain ⟨a, b, -, rfl, -⟩ := applyBinary_eq_ok_of_joins (.inr rfl) first
      rcases b with _ | _ | _ <;> rfl
    · cases decided
  exact applyBinary_persists left (fun _ => .same r) first second

/-- An operand that decides goes on to do so. -/
theorem decides_of_persists (decided : Step.decides op l = true) (left : l.Persists l') :
    Step.decides op l' = true ∧ l' = l := by
  have known : l ≠ .null ∧ l.type.isNested = false := by
    unfold Step.decides at decided
    split at decided
    · exact ⟨nofun, rfl⟩
    · exact ⟨nofun, rfl⟩
    · cases decided
  obtain rfl := (left known.1).eq_of_known known.1 known.2
  exact ⟨decided, rfl⟩

/-- A unary operator keeps what is known if its operand does, unless it is a null test. -/
theorem applyUnary_persists (strict : op ≠ .isNull) (strict' : op ≠ .isNotNull)
    (operand : u.Persists u') (first : OperatorTable.standard.applyUnary op u = .ok v)
    (second : OperatorTable.standard.applyUnary op u' = .ok v') : v.Persists v' := by
  rcases OperatorTable.applyUnary_eq_ok_of_strict strict strict' first with rfl | ⟨known, flat⟩
  · exact Value.null_persists v'
  · obtain rfl := (operand known).eq_of_known known flat
    obtain rfl : v = v' := Except.ok.inj (first.symm.trans second)
    intro _
    exact .same v

end Operators

/-! ## Collection tests -/

section Tests

variable {test test' : Value → Except EvalError Value} {outcome outcome' v v' : Value}

/-- Answers joined to one that may become true may still become true. -/
theorem someMatch_persists_true {items : List Value} (start : outcome.Persists (.boolean true))
    (h : Node.someMatch .standard test outcome items = .ok v) : v.Persists (.boolean true) := by
  induction items generalizing outcome with
  | nil =>
      cases h
      exact start
  | cons element rest ih =>
      obtain ⟨u, -, behind⟩ := bind_eq_ok h
      obtain ⟨joined, hjoined, continued⟩ := bind_eq_ok behind
      have restart : joined.Persists (.boolean true) :=
        applyBinary_persists_of_decides rfl start (mapError_eq_ok hjoined)
      split at continued
      · cases continued
        exact restart
      · exact ih restart continued

/-- Joined answers keep what is known if the answers do. -/
theorem someMatch_persists {items items' : List Value}
    (tests : List.Forall₂ (fun element element' => ∀ u u', test element = .ok u →
      test' element' = .ok u' → u.Persists u') items items')
    (start : outcome.Persists outcome')
    (first : Node.someMatch .standard test outcome items = .ok v)
    (second : Node.someMatch .standard test' outcome' items' = .ok v') : v.Persists v' := by
  induction tests generalizing outcome outcome' with
  | nil =>
      cases first
      cases second
      exact start
  | cons answers _ ih =>
      obtain ⟨u, hu, behind⟩ := bind_eq_ok first
      obtain ⟨joined, hjoined, continued⟩ := bind_eq_ok behind
      obtain ⟨u', hu', behind'⟩ := bind_eq_ok second
      obtain ⟨joined', hjoined', continued'⟩ := bind_eq_ok behind'
      have keeps : joined.Persists joined' :=
        applyBinary_persists start (answers u u' hu hu') (mapError_eq_ok hjoined)
          (mapError_eq_ok hjoined')
      -- the second run stops where the first one does, or earlier
      split at continued'
      · cases continued'
        split at continued
        · cases continued
          exact keeps
        · exact someMatch_persists_true keeps continued
      · rename_i unsatisfied
        split at continued
        · exact absurd (Value.persists_boolean_iff.mp keeps) unsatisfied
        · exact ih keeps continued continued'

end Tests

/-! ## Trees -/

namespace Node

/-- No null test stands in the tree. -/
def HasNoNullTest : Node → Prop
  | value _ | globalScope | item => True
  | object parent _ => parent.HasNoNullTest
  | field scope _ => scope.HasNoNullTest
  | collection parent predicate => parent.HasNoNullTest ∧ predicate.HasNoNullTest
  | prefixed op operand _ | postfixed operand op _ =>
    (op ≠ .isNull ∧ op ≠ .isNotNull) ∧ operand.HasNoNullTest
  | infixed left op right _ =>
    (op ≠ .isNull ∧ op ≠ .isNotNull) ∧ left.HasNoNullTest ∧ right.HasNoNullTest

section Trees

variable {context context' : Context} {node : Node} {element element' : Option Value}

theorem asOperand_persists {v v' : Value}
    (keeps : ∀ {m m'}, node.meaning ⟨.standard, context⟩ element = .ok m →
      node.meaning ⟨.standard, context'⟩ element' = .ok m' → m.Persists m')
    (first : node.asOperand (node.meaning ⟨.standard, context⟩ element) = .ok v)
    (second : node.asOperand (node.meaning ⟨.standard, context'⟩ element') = .ok v') :
    v.Persists v' :=
  keeps (asOperand_eq_ok first) (asOperand_eq_ok second)

/-- The operands of an operator persist, and so does what it makes of them: the left one may come to
decide, but it does not cease to. -/
theorem infixed_persists {left right : Node} {op : Operator} (grouping : Associativity)
    {m m' : Meaning}
    (keepsLeft : ∀ {m m'}, left.meaning ⟨.standard, context⟩ element = .ok m →
      left.meaning ⟨.standard, context'⟩ element' = .ok m' → m.Persists m')
    (keepsRight : ∀ {m m'}, right.meaning ⟨.standard, context⟩ element = .ok m →
      right.meaning ⟨.standard, context'⟩ element' = .ok m' → m.Persists m')
    (first : (infixed left op right grouping).meaning ⟨.standard, context⟩ element = .ok m)
    (second : (infixed left op right grouping).meaning ⟨.standard, context'⟩ element' = .ok m') :
    m.Persists m' := by
  obtain ⟨l, hl, outcome⟩ := meaning_infixed_eq_ok first
  obtain ⟨l', hl', outcome'⟩ := meaning_infixed_eq_ok second
  have lefts : l.Persists l' := keepsLeft hl hl'
  rcases outcome with ⟨decided, rfl⟩ | ⟨-, r, v, hr, hv, rfl⟩
  · obtain ⟨decided', rfl⟩ := decides_of_persists decided lefts
    rcases outcome' with ⟨-, rfl⟩ | ⟨undecided', -⟩
    · exact lefts
    · rw [decided'] at undecided'
      cases undecided'
  · rcases outcome' with ⟨decided', rfl⟩ | ⟨-, r', v', hr', hv', rfl⟩
    · exact applyBinary_persists_of_decides decided' lefts hv
    · have rights : r.Persists r' := keepsRight hr hr'
      exact applyBinary_persists lefts rights hv hv'

/-- An operator with one operand, whether it stands in front of it or behind. -/
theorem unary_persists {op : Operator} (grouping : Associativity) {m m' : Meaning}
    (strict : op ≠ .isNull ∧ op ≠ .isNotNull)
    (keeps : ∀ {m m'}, node.meaning ⟨.standard, context⟩ element = .ok m →
      node.meaning ⟨.standard, context'⟩ element' = .ok m' → m.Persists m')
    (first : (prefixed op node grouping).meaning ⟨.standard, context⟩ element = .ok m)
    (second : (prefixed op node grouping).meaning ⟨.standard, context'⟩ element' = .ok m') :
    m.Persists m' := by
  obtain ⟨u, v, hu, hv, rfl⟩ := meaning_prefixed_eq_ok first
  obtain ⟨u', v', hu', hv', rfl⟩ := meaning_prefixed_eq_ok second
  have operands : u.Persists u' := keeps hu hu'
  exact applyUnary_persists strict.1 strict.2 operands hv hv'

/-- What a name leads to is completed if the scope is that it is read from. -/
theorem get_completed {scope scope' : Scope} {name : String} {v v' : Value}
    (scopes : scope.IsCompletedBy scope') (completed : context.IsCompletedBy context')
    (found : scope.get ⟨.standard, context⟩ name = .ok (some v))
    (found' : scope'.get ⟨.standard, context'⟩ name = .ok (some v')) : v.IsCompletedBy v' := by
  have answers := scopes.get completed found found'
  cases answers with
  | some each => exact each

/-- Where both runs give a tree a meaning, the second one keeps what the first one knows. -/
theorem meaning_persists (completed : context.IsCompletedBy context') (strict : node.HasNoNullTest)
    (elements : Option.Rel Value.IsCompletedBy element element') {m m' : Meaning}
    (first : node.meaning ⟨.standard, context⟩ element = .ok m)
    (second : node.meaning ⟨.standard, context'⟩ element' = .ok m') : m.Persists m' := by
  -- the elements under test are those at the node: a predicate is met once for each pair of them
  induction node generalizing element element' m m' with
  | value operand =>
      cases operand with
      | literal v =>
          cases first
          cases second
          intro _
          exact .same v
      | placeholder p => cases first
  | globalScope =>
      cases first
      cases second
      exact trivial
  | item =>
      cases elements with
      | none => cases first
      | some each =>
          cases first
          cases second
          exact each
  | object parent name ih =>
      obtain ⟨scope, v, hscope, found, rfl⟩ := meaning_object_eq_ok first
      obtain ⟨scope', v', hscope', found', rfl⟩ := meaning_object_eq_ok second
      have scopes : scope.IsCompletedBy scope' := ih strict elements hscope hscope'
      exact get_completed scopes completed found found'
  | field parent name ih =>
      obtain ⟨scope, v, hscope, found, rfl⟩ := meaning_field_eq_ok first
      obtain ⟨scope', v', hscope', found', rfl⟩ := meaning_field_eq_ok second
      have scopes : scope.IsCompletedBy scope' := ih strict elements hscope hscope'
      intro _
      exact get_completed scopes completed found found'
  | collection parent predicate ihs ihp =>
      obtain ⟨scope, items, outcome, hscope, hitems, answers, rfl⟩ := meaning_collection_eq_ok first
      obtain ⟨scope', items', outcome', hscope', hitems', answers', rfl⟩ :=
        meaning_collection_eq_ok second
      have scopes : scope.IsCompletedBy scope' := ihs strict.1 elements hscope hscope'
      have each := elementsOf_completed scopes completed hitems hitems'
      refine someMatch_persists (each.imp ?_) (fun _ => .same _) answers answers'
      intro row row' completedRow u u' hu hu'
      exact asOperand_persists (ihp strict.2 (.some completedRow)) hu hu'
  | prefixed op operand grouping ih =>
      exact unary_persists grouping strict.1 (ih strict.2 elements) first second
  | infixed left op right grouping ihl ihr =>
      exact infixed_persists grouping (ihl strict.2.1 elements) (ihr strict.2.2 elements) first
        second
  | postfixed operand op grouping ih =>
      exact unary_persists grouping strict.1 (ih strict.2 elements) first second

end Trees

/-- A boolean that a tree has for some context persists for every completed context, unless the tree
fails there. -/
theorem persists_boolean_of_completed {context context' : Context}
    (completed : context.IsCompletedBy context') {tree : Node} (strict : tree.HasNoNullTest)
    {b : Bool} {v : Value}
    (decided : ((tree.evaluate ⟨.standard, context⟩).run Session.fresh).1 = .ok (.boolean b))
    (succeeds : ((tree.evaluate ⟨.standard, context'⟩).run Session.fresh).1 = .ok v) :
    (Value.boolean b).Persists v := by
  have empty : Session.fresh.scopes = [] ∨ tree.IsWellScoped := .inl rfl
  rw [tree.evaluate_eq _ _ empty] at decided succeeds
  exact asOperand_persists (meaning_persists completed strict .none) decided succeeds

/-- What is decided stays decided: a boolean that a tree without null tests has for some document,
it has as well where scalars have taken the place of NULLs, unless it fails there. -/
theorem boolean_of_completion {document document' : Value}
    (completed : document.IsCompletedBy document') {tree : Node} (strict : tree.HasNoNullTest)
    {b : Bool} {v : Value}
    (decided : ((tree.evaluate ⟨.standard, .ofValue document⟩).run Session.fresh).1 =
      .ok (.boolean b))
    (succeeds : ((tree.evaluate ⟨.standard, .ofValue document'⟩).run Session.fresh).1 = .ok v) :
    v = .boolean b := by
  have contexts := Context.isCompletedBy_ofValue completed
  have keeps := persists_boolean_of_completed contexts strict decided succeeds
  exact Value.persists_boolean_iff.mp keeps

/-- `$.Items[*][?@.price > 2 && @.name == "x"] && !($.rate == 1 && $.open)` -/
def guardedTree : Node :=
  .and
    (.collection (.object .globalScope "Items")
      (.and (.between (.field .item "price") .greaterThan (.literal (.integer 2)))
        [.between (.field .item "name") .equal (.literal (.text "x"))]))
    [.not (.and (.between (.field .globalScope "rate") .equal (.literal (.integer 1)))
      [.field .globalScope "open"])]

/-- A document with these values at the places that `guardedTree` reads. -/
def priceList (first second rate : Value) : Value :=
  .object [("Items", .array [.object [("name", .text "x"), ("price", first)],
      .object [("name", .text "x"), ("price", second)]]),
    ("open", .boolean false), ("rate", rate)]

/-- The first price and the rate become known, and the second price decides as before. -/
theorem boolean_of_completion_guardedTree :
    (priceList .null (.integer 3) .null).IsCompletedBy
        (priceList (.integer 1) (.integer 3) (.integer 1)) ∧
      ((guardedTree.evaluate ⟨.standard, .ofValue (priceList .null (.integer 3) .null)⟩).run
        Session.fresh).1 = .ok (.boolean true) ∧
      ∃ v, ((guardedTree.evaluate ⟨.standard, .ofValue (priceList (.integer 1) (.integer 3)
        (.integer 1))⟩).run Session.fresh).1 = .ok v ∧ v = .boolean true := by
  have price : (Value.object [("name", .text "x"), ("price", .null)]).IsCompletedBy
      (.object [("name", .text "x"), ("price", .integer 1)]) :=
    .object rfl (.cons (.same _) (.cons (.unknown rfl) .nil))
  have completed : (priceList .null (.integer 3) .null).IsCompletedBy
      (priceList (.integer 1) (.integer 3) (.integer 1)) :=
    .object rfl (.cons (.array (.cons price (.cons (.same _) .nil)))
      (.cons (.same _) (.cons (.unknown rfl) .nil)))
  have strict : guardedTree.HasNoNullTest := by
    simp [guardedTree, Node.and, between, Node.not, before, literal, HasNoNullTest]
  refine ⟨completed, rfl, _, rfl, ?_⟩
  exact boolean_of_completion completed strict rfl rfl

end Node

end DataFilter
