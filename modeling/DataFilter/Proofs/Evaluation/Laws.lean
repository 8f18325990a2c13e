import DataFilter.Proofs.Evaluation.Quantifiers
import DataFilter.Proofs.Operation.Table

/-!
# The laws of logic

A condition reads its operands only through what they contribute: a truth value, or nothing where an
operand fails or is neither true nor false nor unknown. `truthAt` is that contribution, and
`joinInOrder` is what `AND` and `OR` make of two of them, the right one looked at only if the left
one does not decide. So the laws of logic come down to the tables of `AND`, `OR` and `NOT`, where
nothing is a fourth entry.

What fails may fail in another way after rewriting: of several operands that fail, another one may be
met first.
-/

namespace DataFilter

/-! ## Truth values that may be missing -/

/-- `AND` or `OR` of operands that are looked at from left to right, and only as long as nothing is
decided. An operand without a truth value is `none`, and so is a junction that has to look at it. -/
def joinInOrder (op : Operator) (left right : Option Truth) : Option Truth := do
  let a ← left
  if Step.decides op a.toValue then return a
  else
    let b ← right
    return junction op a b

section Junctions

variable {op : Operator}

/-- Grouping decides which operands are looked at, but not what comes of them. -/
theorem joinInOrder_assoc (joins : op = .and ∨ op = .or) (a b c : Option Truth) :
    joinInOrder op (joinInOrder op a b) c = joinInOrder op a (joinInOrder op b c) := by
  rcases joins with rfl | rfl <;> rcases a with _ | _ | _ | _ <;> rcases b with _ | _ | _ | _ <;>
    rcases c with _ | _ | _ | _ <;> rfl

theorem not_joinInOrder_and (a b : Option Truth) :
    (joinInOrder .and a b).map Truth.not = joinInOrder .or (a.map Truth.not) (b.map Truth.not) := by
  rcases a with _ | _ | _ | _ <;> rcases b with _ | _ | _ | _ <;> rfl

theorem not_joinInOrder_or (a b : Option Truth) :
    (joinInOrder .or a b).map Truth.not = joinInOrder .and (a.map Truth.not) (b.map Truth.not) := by
  rcases a with _ | _ | _ | _ <;> rcases b with _ | _ | _ | _ <;> rfl

/-- What is neither true nor false nor unknown decides nothing. -/
theorem decides_of_ofValue?_eq_none {v : Value} (h : Truth.ofValue? v = none) :
    Step.decides op v = false := by
  cases v with
  | null => cases h
  | boolean b => cases h
  | _ => cases op <;> rfl

/-- `AND` and `OR` of values have a value just if both operands are truth values. -/
theorem toOption_applyBinary (joins : op = .and ∨ op = .or) (table : OperatorTable) (l r : Value) :
    (table.applyBinary l op r).toOption = (do
      let a ← Truth.ofValue? l
      let b ← Truth.ofValue? r
      return (junction op a b).toValue) := by
  rw [OperatorTable.applyBinary, if_pos joins, OperatorTable.logical]
  cases Truth.ofValue? l with
  | none => rfl
  | some a => cases Truth.ofValue? r <;> rfl

/-- Of a value and what stands behind it, `AND` and `OR` read the truth values alone. -/
theorem truth_of_joined (joins : op = .and ∨ op = .or) (table : OperatorTable) (l : Value)
    (right : Except EvalError Value) :
    (if Step.decides op l then return l
      else do
        let r ← right
        (table.applyBinary l op r).mapError EvalError.operator).toOption.bind Truth.ofValue? =
      joinInOrder op (Truth.ofValue? l) (right.toOption.bind Truth.ofValue?) := by
  have both (undecided : Step.decides op l ≠ true) :
      (if Step.decides op l then return l
        else do
          let r ← right
          (table.applyBinary l op r).mapError EvalError.operator).toOption =
        right.toOption.bind fun r => do
          let a ← Truth.ofValue? l
          let b ← Truth.ofValue? r
          return (junction op a b).toValue := by
    rw [if_neg undecided, toOption_bind]
    simp only [toOption_mapError, toOption_applyBinary joins]
  cases truth : Truth.ofValue? l with
  | none =>
      -- the right operand is looked at, but whatever it is, the left one is refused
      have undecided : Step.decides op l ≠ true := by
        rw [decides_of_ofValue?_eq_none truth]
        exact Bool.false_ne_true
      rw [both undecided, truth]
      cases right.toOption <;> rfl
  | some a =>
      obtain rfl := Truth.eq_toValue_of_ofValue? truth
      by_cases decided : Step.decides op a.toValue = true
      · show _ = if _ then _ else _
        rw [if_pos decided, if_pos decided]
        exact truth
      · rw [both decided, truth]
        show _ = if _ then _ else _
        rw [if_neg decided]
        cases right.toOption with
        | none => rfl
        | some r =>
            show Option.bind (do let b ← Truth.ofValue? r; return _) _ =
              (do let b ← Truth.ofValue? r; return junction op a b)
            cases Truth.ofValue? r with
            | none => rfl
            | some b => exact Truth.ofValue?_toValue (junction op a b)

end Junctions

namespace Node

/-! ## What operands contribute -/

/-- What a node contributes to a condition: its truth value, if it has one. -/
def truthAt (setting : Setting) (element : Option Value) (node : Node) : Option Truth :=
  (node.valueAt setting element).toOption.bind Truth.ofValue?

section Contributions

variable {setting : Setting} {element : Option Value}

/-- A junction reads its operands only through their truth values. -/
theorem truthAt_between {op : Operator} (joins : op = .and ∨ op = .or) (left right : Node) :
    (between left op right).truthAt setting element =
      joinInOrder op (left.truthAt setting element) (right.truthAt setting element) := by
  unfold truthAt
  rw [between, valueAt_infixed, toOption_bind]
  cases (left.valueAt setting element).toOption with
  | none => rfl
  | some l => exact truth_of_joined joins setting.table l (right.valueAt setting element)

/-- So does a negation. -/
theorem truthAt_not (usual : setting.table.NegatesAsUsual) (operand : Node) :
    (not operand).truthAt setting element = (operand.truthAt setting element).map Truth.not := by
  unfold truthAt
  rw [valueAt_not, negated, toOption_bind]
  cases (operand.valueAt setting element).toOption with
  | none => rfl
  | some v =>
      show (negated setting.table (.ok v)).toOption.bind _ = (Truth.ofValue? v).map Truth.not
      cases truth : Truth.ofValue? v with
      | none =>
          have refused : negated setting.table (.ok v) =
              .error (.operator (.unsupportedUnary .not v.typeName)) :=
            negated_of_fault usual (by simp only [Truth.fault?, truth])
          rw [refused]
          rfl
      | some t =>
          obtain rfl := Truth.eq_toValue_of_ofValue? truth
          rw [negated_toValue usual]
          exact Truth.ofValue?_toValue t.not

end Contributions

/-- A tree is decided by its truth value, unknown counting as false, and a tree that has none
fails. -/
theorem toOption_decide (context : Context) (tree : Node) :
    (tree.decide context).toOption =
      (tree.truthAt ⟨.standard, context⟩ none).map (·.getD false) := by
  unfold decide truthAt valueAt asOperand
  rw [decideWith_eq, toOption_bind]
  by_cases isScope : tree.isScope = true
  · rw [if_pos isScope]
    cases meant : tree.meaning ⟨.standard, context⟩ none with
    | error e => rfl
    | ok m =>
        obtain ⟨scope, rfl⟩ := meaning_isScope isScope meant
        rfl
  · rw [if_neg isScope]
    cases meant : tree.meaning ⟨.standard, context⟩ none with
    | error e => rfl
    | ok m =>
        obtain ⟨v, rfl⟩ := meaning_isValue (Bool.not_eq_true _ ▸ isScope) meant
        cases v <;> rfl

/-! ## Rewriting -/

/-- Both decisions come to the same boolean, or both fail, in whatever ways. -/
def SameVerdict (first second : Except EvalError Bool) : Prop :=
  (∃ b, first = .ok b ∧ second = .ok b) ∨ (∃ e, first = .error e) ∧ ∃ e, second = .error e

theorem sameVerdict_of_truthAt_eq {context : Context} {tree other : Node}
    (same : tree.truthAt ⟨.standard, context⟩ none = other.truthAt ⟨.standard, context⟩ none) :
    SameVerdict (tree.decide context) (other.decide context) := by
  have verdicts : (tree.decide context).toOption = (other.decide context).toOption := by
    rw [toOption_decide, toOption_decide, same]
  cases first : tree.decide context with
  | error e =>
      cases second : other.decide context with
      | error e' => exact .inr ⟨⟨e, rfl⟩, e', rfl⟩
      | ok b =>
          rw [first, second] at verdicts
          cases verdicts
  | ok b =>
      cases second : other.decide context with
      | error e' =>
          rw [first, second] at verdicts
          cases verdicts
      | ok b' =>
          rw [first, second] at verdicts
          cases verdicts
          exact .inl ⟨b, rfl, rfl⟩

/-- Rewriting by the laws of logic keeps the verdict: junctions may be grouped anew, and negations
moved through them. Whatever the operands are, scopes, numbers and what fails included, both forms
come to the same boolean, or both fail. -/
theorem same_verdict_of_laws (a b c : Node) (context : Context) :
    SameVerdict (((a.and [b]).and [c]).decide context) ((a.and [b.and [c]]).decide context) ∧
    SameVerdict (((a.or [b]).or [c]).decide context) ((a.or [b.or [c]]).decide context) ∧
    SameVerdict ((a.and [b]).not.decide context) ((a.not.or [b.not]).decide context) ∧
    SameVerdict ((a.or [b]).not.decide context) ((a.not.and [b.not]).decide context) := by
  let truth (x : Node) : Option Truth := x.truthAt ⟨.standard, context⟩ none
  have conjunction (x y : Node) : truth (x.and [y]) = joinInOrder .and (truth x) (truth y) :=
    truthAt_between (.inl rfl) x y
  have disjunction (x y : Node) : truth (x.or [y]) = joinInOrder .or (truth x) (truth y) :=
    truthAt_between (.inr rfl) x y
  have usual : OperatorTable.standard.NegatesAsUsual := rfl
  have negation (x : Node) : truth x.not = (truth x).map Truth.not := truthAt_not usual x
  refine ⟨?_, ?_, ?_, ?_⟩
  · apply sameVerdict_of_truthAt_eq
    show truth _ = truth _
    rw [conjunction, conjunction, conjunction, conjunction]
    exact joinInOrder_assoc (.inl rfl) _ _ _
  · apply sameVerdict_of_truthAt_eq
    show truth _ = truth _
    rw [disjunction, disjunction, disjunction, disjunction]
    exact joinInOrder_assoc (.inr rfl) _ _ _
  · apply sameVerdict_of_truthAt_eq
    show truth _ = truth _
    rw [negation, conjunction, disjunction, negation, negation]
    exact not_joinInOrder_and _ _
  · apply sameVerdict_of_truthAt_eq
    show truth _ = truth _
    rw [negation, disjunction, conjunction, negation, negation]
    exact not_joinInOrder_or _ _

/-- Both forms fail here, one of them at the reference and the other at the number. -/
example :
    let a : Node := literal (.integer 5)
    let b : Node := .field .globalScope "b"
    (a.and [b]).not.decide (.ofEntries []) = .error (.keyNotFound "$.b") ∧
      (a.not.or [b.not]).decide (.ofEntries []) =
        .error (.operator (.unsupportedUnary .not "integer")) :=
  ⟨rfl, rfl⟩

end Node

end DataFilter
