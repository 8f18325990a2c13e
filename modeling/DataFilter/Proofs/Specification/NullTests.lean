import DataFilter.Proofs.Evaluation.Unknown
import DataFilter.Proofs.Node.Binding
import DataFilter.Proofs.Template.Ambiguity
import DataFilter.Proofs.Template.Embedding

/-!
# Null tests have their `null` behind the sign

`x == null` and `x != null` ask whether `x` is NULL. In front of the sign a `null` is an operand as
any other, so that `null == x` compares: whatever `x` is, the answer is unknown, and unknown counts
as false. Trees of templates have such comparisons exactly where the text has them.
-/

namespace DataFilter

/-! ## Comparisons for equality -/

/-- Some `==` or `!=` in the tree has operands like these. -/
def Node.anyEquality (test : Node → Node → Bool) : Node → Bool
  | value _ | globalScope | item => false
  | object parent _ => parent.anyEquality test
  | field scope _ => scope.anyEquality test
  | collection parent predicate => parent.anyEquality test || predicate.anyEquality test
  | prefixed _ operand _ | postfixed operand _ _ => operand.anyEquality test
  | infixed left op right _ =>
    (op = .equal || op = .notEqual) && test left right ||
      (left.anyEquality test || right.anyEquality test)

/-- Some `==` or `!=` in the tree has the literal NULL as its left operand. -/
abbrev Node.anyNullInFront : Node → Bool := anyEquality fun left _ => left.isNullLiteral

/-- Some `==` or `!=` in the tree has the literal NULL as its right operand. -/
abbrev Node.anyNullBehind : Node → Bool := anyEquality fun _ right => right.isNullLiteral

/-- Tokens that begin with a `null` in front of `==` or `!=`, and no other one behind it. -/
def Token.leadsWithNull : List Token → Bool
  | .null :: .equalEqual :: next :: _ | .null :: .notEqual :: next :: _ => next ≠ .null
  | _ => false

/-- Somewhere among tokens a `null` stands in front of `==` or `!=`, and no other one behind it. -/
def Token.anyNullInFront : List Token → Bool
  | [] => false
  | token :: rest => leadsWithNull (token :: rest) || anyNullInFront rest

namespace Grammar.Sign

/-- Whether the sign asks for NULL if a `null` stands behind it. -/
def testsNull : Sign → Bool
  | equal | notEqual => true
  | _ => false

/-- What the sign asks of a value if a `null` stands behind it. -/
def holdsOf : Sign → Value → Bool
  | notEqual, v => !v.isNull
  | _, v => v.isNull

/-- The comparison of the operand with a `null` behind the sign. -/
def nullBehind (sign : Sign) (operand : String) : String :=
  operand ++ " " ++ sign.operator.symbol ++ " null"

/-- The comparison of the operand with a `null` in front of the sign. -/
def nullInFront (sign : Sign) (operand : String) : String :=
  "null " ++ sign.operator.symbol ++ " " ++ operand

end Grammar.Sign

open Grammar

/-! ## Nulls in tokens -/

namespace Token

variable {token : Token} {front rest : List Token}

theorem anyNullInFront_cons (other : token ≠ .null) :
    anyNullInFront (token :: rest) = anyNullInFront rest := by
  have leads : leadsWithNull (token :: rest) = false := by
    unfold leadsWithNull
    split
    · rename_i same
      exact absurd (List.cons.inj same).1 other
    · rename_i same
      exact absurd (List.cons.inj same).1 other
    · rfl
  rw [anyNullInFront, leads, Bool.false_or]

theorem anyNullInFront_append (others : ∀ token ∈ front, token ≠ .null) :
    anyNullInFront (front ++ rest) = anyNullInFront rest := by
  induction front with
  | nil => rfl
  | cons token front ih =>
      obtain ⟨first, behind⟩ := List.forall_mem_cons.mp others
      rw [List.cons_append, anyNullInFront_cons first, ih behind]

/-- A `null` is in front of no comparison if no sign follows. -/
theorem anyNullInFront_null (ends : Ends 3 rest) :
    anyNullInFront (.null :: rest) = anyNullInFront rest := by
  have leads : leadsWithNull (.null :: rest) = false := by
    unfold leadsWithNull
    split
    · rename_i same
      cases same
      simp [strength] at ends
    · rename_i same
      cases same
      simp [strength] at ends
    · rfl
  rw [anyNullInFront, leads, Bool.false_or]

theorem anyNullInFront_sign (sign : Sign) (next : Token) :
    anyNullInFront (.null :: sign.token :: next :: rest) =
      (sign.testsNull && next ≠ .null || anyNullInFront (next :: rest)) := by
  have behind : anyNullInFront (sign.token :: next :: rest) = anyNullInFront (next :: rest) :=
    anyNullInFront_cons (by cases sign <;> exact nofun)
  rw [anyNullInFront, behind]
  cases sign <;> rfl

end Token

/-! ## Nulls in trees -/

namespace Node

variable {test : Node → Node → Bool}

/-- Conditions that are joined have the comparisons of each of them. -/
theorem anyEquality_foldl {op : Operator} (joins : op = .and ∨ op = .or) (first : Node)
    (rest : List Node) :
    (rest.foldl (between · op ·) first).anyEquality test =
      (first.anyEquality test || rest.any (anyEquality test)) := by
  induction rest generalizing first with
  | nil => exact (Bool.or_false _).symm
  | cons next rest ih =>
      have joined : (between first op next).anyEquality test =
          (first.anyEquality test || next.anyEquality test) := by
        rcases joins with rfl | rfl <;> rfl
      rw [List.foldl_cons, ih, joined, List.any_cons, Bool.or_assoc]

/-- A chain of scopes has no comparison. -/
theorem anyEquality_scope (anchor : Anchor) (inTest : Bool) (path : List String) :
    (path.foldl object (anchor.root inTest)).anyEquality test = false := by
  generalize hroot : anchor.root inTest = root
  have none_first : root.anyEquality test = false := by
    subst hroot
    cases anchor <;> cases inTest <;> rfl
  clear hroot
  induction path generalizing root with
  | nil => exact none_first
  | cons name path ih => exact ih (object root name) none_first

end Node

namespace Grammar

/-- Some condition that a derivation means has the property. -/
def Meaning.any (test : Node → Bool) : {c : Category} → Meaning c → Bool
  | .orRest, (nodes : List Node) | .andRest, (nodes : List Node) => nodes.any test
  | .template, (node : Node) | .filter, (node : Node) | .or, (node : Node) | .and, (node : Node)
  | .unary, (node : Node) | .comparison, (node : Node) | .operand, (node : Node) => test node

/-- A null test is no comparison, and everything else that a sign means is one if the sign is `==`
or `!=`. -/
theorem Sign.anyEquality_compare (sign : Sign) (left right : Node) (withNull : Bool)
    (test : Node → Node → Bool) :
    (sign.compare left withNull right).anyEquality test =
      if sign.testsNull && withNull then left.anyEquality test
      else sign.testsNull && test left right ||
        (left.anyEquality test || right.anyEquality test) := by
  cases sign <;> cases withNull <;> rfl

namespace Derivation

theorem isNullLiteral_tree (d : Derivation .operand) (inTest : Bool) :
    Node.isNullLiteral (d.tree inTest) = d.isNull := by
  cases d with
  | atom a => cases a <;> rfl
  | field => rfl
  | test => rfl

/-- No comparison has a `null` behind its sign. -/
theorem null_not_behind {c : Category} (d : Derivation c) (inTest : Bool) :
    Meaning.any Node.anyNullBehind (d.tree inTest) = false := by
  induction d generalizing inTest with
  | whole _ ih => exact ih inTest
  | elements path _ _ ih =>
      exact Bool.or_eq_false_iff.mpr ⟨Node.anyEquality_scope .document inTest path, ih true⟩
  | bracketed _ ih => exact ih inTest
  | or _ _ ihFirst ihRest =>
      exact (Node.anyEquality_foldl (.inr rfl) _ _).trans
        (Bool.or_eq_false_iff.mpr ⟨ihFirst inTest, ihRest inTest⟩)
  | orEnd => rfl
  | orMore _ _ ihNext ihRest => exact Bool.or_eq_false_iff.mpr ⟨ihNext inTest, ihRest inTest⟩
  | and _ _ ihFirst ihRest =>
      exact (Node.anyEquality_foldl (.inl rfl) _ _).trans
        (Bool.or_eq_false_iff.mpr ⟨ihFirst inTest, ihRest inTest⟩)
  | andEnd => rfl
  | andMore _ _ ihNext ihRest => exact Bool.or_eq_false_iff.mpr ⟨ihNext inTest, ihRest inTest⟩
  | not _ ih => exact ih inTest
  | group _ ih => exact ih inTest
  | plain _ ih => exact ih inTest
  | single _ ih => exact ih inTest
  | pair left sign right ihLeft ihRight =>
      show (sign.compare (left.tree inTest) right.isNull (right.tree inTest)).anyEquality _ = false
      have hleft : (left.tree inTest : Node).anyEquality _ = false := ihLeft inTest
      have hright : (right.tree inTest : Node).anyEquality _ = false := ihRight inTest
      rw [Sign.anyEquality_compare, hleft, hright, isNullLiteral_tree]
      cases sign.testsNull <;> cases right.isNull <;> rfl
  | atom a => cases a <;> rfl
  | field anchor path _ => exact Node.anyEquality_scope anchor inTest path.dropLast
  | test anchor path _ _ ih =>
      exact Bool.or_eq_false_iff.mpr ⟨Node.anyEquality_scope anchor inTest path, ih true⟩

/-- No sign stands behind a derivation, if it may end in a `null`. -/
def EndsApart (rest : List Token) : {c : Category} → Derivation c → Prop
  | .template, _ | .filter, _ => True
  | .operand, d => d.isNull = true → Ends 3 rest
  | _, _ => Ends 3 rest

theorem ne_null_pathTokens (path : List String) : ∀ token ∈ pathTokens path, token ≠ .null := by
  intro token hmem
  obtain ⟨name, -, hmem⟩ := List.mem_flatMap.mp hmem
  simp only [List.mem_cons, List.not_mem_nil, or_false] at hmem
  rcases hmem with rfl | rfl <;> exact nofun

/-- No `null` stands in front of a filter. -/
theorem anyNullInFront_collection (anchor : Anchor) (path : List String) (rest : List Token) :
    Token.anyNullInFront (anchor.token :: pathTokens path ++ anyElement ++ rest) =
      Token.anyNullInFront rest := by
  refine Token.anyNullInFront_append fun token hmem => ?_
  rw [List.cons_append, List.mem_cons, List.mem_append] at hmem
  rcases hmem with rfl | named | bracket
  · cases anchor <;> exact nofun
  · exact ne_null_pathTokens path token named
  · rintro rfl
    simp [anyElement] at bracket

/-- The first token of an operand tells whether it is `null`. -/
theorem exists_tokens_eq_cons (d : Derivation .operand) :
    ∃ next more, d.tokens = next :: more ∧ decide (next ≠ .null) = !d.isNull := by
  cases d with
  | atom a => exact ⟨a.token, [], rfl, by cases a <;> rfl⟩
  | field anchor => exact ⟨anchor.token, _, rfl, by cases anchor <;> rfl⟩
  | test anchor => exact ⟨anchor.token, _, rfl, by cases anchor <;> rfl⟩

/-- A comparison is what both operands have, and its own `null` in front. -/
theorem anyNullInFront_pair {left right : Derivation .operand} {inTest : Bool} {rest : List Token}
    (sign : Sign) {l r : Node} (hl : left.tree inTest = l) (hr : right.tree inTest = r)
    (first : left.isNull = false → ∀ others : List Token,
      Token.anyNullInFront (left.tokens ++ others) =
        (l.anyNullInFront || Token.anyNullInFront others))
    (second : Token.anyNullInFront (right.tokens ++ rest) =
      (r.anyNullInFront || Token.anyNullInFront rest)) :
    Token.anyNullInFront (left.tokens ++ sign.token :: (right.tokens ++ rest)) =
      ((sign.compare l right.isNull r).anyNullInFront || Token.anyNullInFront rest) := by
  have compared : (sign.compare l right.isNull r).anyNullInFront =
      if sign.testsNull && right.isNull then l.anyNullInFront
      else sign.testsNull && left.isNull || (l.anyNullInFront || r.anyNullInFront) := by
    rw [← left.isNullLiteral_tree inTest, hl]
    exact sign.anyEquality_compare l r right.isNull _
  have nothing {d : Derivation .operand} {node : Node} (h : d.tree inTest = node)
      (null : d.isNull = true) : node.anyNullInFront = false := by
    obtain rfl := eq_null null
    subst h
    rfl
  have taken := nothing hr
  rw [compared]
  cases hleft : left.isNull with
  | false =>
      have other : sign.token ≠ .null := by cases sign <;> exact nofun
      rw [first hleft, Token.anyNullInFront_cons other, second]
      cases hright : right.isNull with
      | false => cases sign.testsNull <;> simp [Bool.or_assoc]
      | true => cases sign.testsNull <;> simp [taken hright]
  | true =>
      rw [nothing hl hleft]
      obtain rfl := eq_null hleft
      obtain ⟨next, more, spelled, other⟩ := right.exists_tokens_eq_cons
      rw [spelled, List.cons_append] at second ⊢
      show Token.anyNullInFront (.null :: sign.token :: next :: (more ++ rest)) = _
      rw [Token.anyNullInFront_sign, second, other]
      cases hright : right.isNull with
      | false => cases sign.testsNull <;> simp
      | true => cases sign.testsNull <;> simp [taken hright]

/-- A comparison with a `null` in front of its sign is where the tokens have one. -/
theorem anyNullInFront_tokens {c : Category} (d : Derivation c) (inTest : Bool)
    {rest : List Token} (apart : d.EndsApart rest) :
    Token.anyNullInFront (d.tokens ++ rest) =
      (Meaning.any Node.anyNullInFront (d.tree inTest) || Token.anyNullInFront rest) := by
  -- for any `rest`, since a part of the tokens is followed by the parts behind it
  induction d generalizing inTest rest with
  | whole _ ih => exact ih inTest apart
  | elements path _ filter ih =>
      rw [tokens, List.append_assoc]
      refine (anyNullInFront_collection .document path _).trans ?_
      rw [ih true apart]
      show _ = (Node.anyEquality _ (path.foldl .object (Anchor.document.root inTest)) || _ || _)
      rw [Node.anyEquality_scope, Bool.false_or]
      rfl
  | bracketed condition ih =>
      rw [tokens, List.append_assoc]
      exact ih inTest (ends_cons.mpr (by decide))
  | or first more ihFirst ihMore =>
      rw [tokens, List.append_assoc, ihFirst inTest (apart.orRest (by decide) more),
        ihMore inTest apart, ← Bool.or_assoc]
      exact congrArg (· || _) (Node.anyEquality_foldl (.inr rfl) _ _).symm
  | orEnd => rfl
  | orMore next more ihNext ihMore =>
      rw [tokens, List.append_assoc]
      show Token.anyNullInFront (next.tokens ++ (more.tokens ++ rest)) = _
      rw [ihNext inTest (apart.orRest (by decide) more), ihMore inTest apart, ← Bool.or_assoc]
      rfl
  | and first more ihFirst ihMore =>
      rw [tokens, List.append_assoc, ihFirst inTest (apart.andRest (by decide) more),
        ihMore inTest apart, ← Bool.or_assoc]
      exact congrArg (· || _) (Node.anyEquality_foldl (.inl rfl) _ _).symm
  | andEnd => rfl
  | andMore next more ihNext ihMore =>
      rw [tokens, List.append_assoc]
      show Token.anyNullInFront (next.tokens ++ (more.tokens ++ rest)) = _
      rw [ihNext inTest (apart.andRest (by decide) more), ihMore inTest apart, ← Bool.or_assoc]
      rfl
  | not _ ih => exact ih inTest apart
  | group condition ih =>
      rw [tokens, List.append_assoc]
      exact ih inTest (ends_cons.mpr (by decide))
  | plain comparison ih => exact ih inTest apart
  | single operand ih => exact ih inTest fun _ => apart
  | pair left sign right ihLeft ihRight =>
      rw [tokens, List.append_assoc, List.cons_append]
      refine anyNullInFront_pair sign rfl rfl (fun operand others => ihLeft inTest fun null => ?_)
        (ihRight inTest fun _ => apart)
      exact absurd (operand.symm.trans null) Bool.false_ne_true
  | atom a =>
      cases a with
      | null => exact Token.anyNullInFront_null (apart rfl)
      | _ => exact Token.anyNullInFront_cons nofun
  | field anchor path _ =>
      have none_spelled : Token.anyNullInFront (anchor.token :: pathTokens path ++ rest) =
          Token.anyNullInFront rest := by
        refine Token.anyNullInFront_append (List.forall_mem_cons.mpr ⟨?_, ne_null_pathTokens path⟩)
        cases anchor <;> exact nofun
      refine none_spelled.trans ?_
      show _ = ((path.dropLast.foldl Node.object (anchor.root inTest)).anyEquality _ || _)
      rw [Node.anyEquality_scope, Bool.false_or]
  | test anchor path _ filter ih =>
      rw [tokens, List.append_assoc]
      refine (anyNullInFront_collection anchor path _).trans ?_
      rw [ih true trivial]
      show _ = ((path.foldl Node.object (anchor.root inTest)).anyEquality _ || _ || _)
      rw [Node.anyEquality_scope, Bool.false_or]
      rfl

end Derivation

end Grammar

/-! ## What the comparisons answer -/

namespace Specification

/-- The value of a tree by itself, once its placeholders are filled. -/
def valueOf (tree : Node) (context : Context) (params : Parameters) : Except Error Value := do
  let bound ← (tree.bind params).mapError .binding
  (bound.valueIn ⟨.standard, context⟩ .fresh).mapError .evaluation

section Answers

variable {template : String} {op : Operator} {operand : Node}

/-- What is no scope is decided by its value. -/
theorem decide_eq_truth {tree : Node} (h : tree.isScope = false) (context : Context) :
    tree.decide context =
      tree.valueAt ⟨.standard, context⟩ none >>= fun v => (Meaning.value v).truth := by
  unfold Node.decide Node.valueAt Node.asOperand
  rw [Node.decideWith_eq, h, if_neg Bool.false_ne_true]
  cases meant : tree.meaning ⟨.standard, context⟩ none with
  | error e => rfl
  | ok m =>
      obtain ⟨v, rfl⟩ := Node.meaning_isValue h meant
      rfl

/-- A condition around an operand that makes a truth value of any value of it is satisfied as that
says, and fails as the operand does. -/
theorem isSatisfiedBy_around (around : Node → Node) (answer : Value → Value)
    {verdict : Value → Bool} {context : Context}
    (binds : ∀ params, (around operand).bind params = (operand.bind params).map around)
    (plain : ∀ bound, (around bound).isScope = false)
    (value : ∀ bound, (around bound).valueAt ⟨.standard, context⟩ none =
      (bound.valueAt ⟨.standard, context⟩ none).map answer)
    (truth : ∀ v, (Meaning.value (answer v)).truth = .ok (verdict v)) (params : Parameters) :
    (⟨template, around operand⟩ : Specification).isSatisfiedBy context params =
      (valueOf operand context params).map verdict := by
  unfold isSatisfiedBy valueOf
  rw [bind_eq, binds]
  cases operand.bind params with
  | error e => rfl
  | ok bound =>
      have only : bound.valueIn ⟨.standard, context⟩ .fresh =
          bound.valueAt ⟨.standard, context⟩ none := Node.valueIn_eq (.inl rfl)
      show ((around bound).decide context).mapError _ = Except.map _ (Except.mapError _ _)
      rw [decide_eq_truth (plain bound), value, only]
      cases bound.valueAt ⟨.standard, context⟩ none with
      | error e => rfl
      | ok v =>
          show (Meaning.value (answer v)).truth.mapError _ = _
          rw [truth]
          rfl

/-- A test behind its operand is satisfied if it holds of the value. -/
theorem isSatisfiedBy_after {test : Value → Bool}
    (tests : ∀ v, OperatorTable.standard.applyUnary op v = .ok (.boolean (test v)))
    (context : Context) (params : Parameters) :
    (⟨template, .after operand op⟩ : Specification).isSatisfiedBy context params =
      (valueOf operand context params).map test := by
  refine isSatisfiedBy_around (Node.after · op) (fun v => .boolean (test v)) (fun _ => rfl)
    (fun _ => rfl) (fun bound => ?_) (fun _ => rfl) params
  rw [Node.after, Node.valueAt_postfixed, Node.valueAt_prefixed]
  simp only [tests]
  cases bound.valueAt ⟨.standard, context⟩ none <;> rfl

/-- A comparison with NULL in front is never satisfied. -/
theorem isSatisfiedBy_null_between (strict : op.isStrict = true) (context : Context)
    (params : Parameters) :
    (⟨template, .between (.literal .null) op operand⟩ : Specification).isSatisfiedBy context
        params =
      (valueOf operand context params).map fun _ => false := by
  refine isSatisfiedBy_around (Node.between (.literal .null) op ·) (fun _ => .null) (fun _ => ?_)
    (fun _ => rfl) (fun bound => ?_) (fun _ => rfl) params
  · show (do return Node.between (.literal .null) op (← operand.bind _) : Except BindError Node) = _
    cases operand.bind _ <;> rfl
  · have undecided : Step.decides op .null = false := by cases op <;> rfl
    have unknown (v : Value) : OperatorTable.standard.applyBinary .null op v = .ok .null :=
      (OperatorTable.applyBinary_eq_null_iff strict).mpr (.inl rfl)
    have literal : (Node.literal .null).valueAt ⟨.standard, context⟩ none = .ok .null := rfl
    rw [Node.between, Node.valueAt_infixed, literal]
    show (if Step.decides op .null = true then _ else _) = _
    rw [undecided, if_neg Bool.false_ne_true]
    simp only [unknown]
    cases bound.valueAt ⟨.standard, context⟩ none <;> rfl

/-- The null test of a sign is satisfied if the sign holds of the value. -/
theorem isSatisfiedBy_nullTest (sign : Sign) (tests : sign.testsNull = true) {right : Node}
    (context : Context) (params : Parameters) :
    (⟨template, sign.compare operand true right⟩ : Specification).isSatisfiedBy context params =
      (valueOf operand context params).map sign.holdsOf := by
  cases sign with
  | equal => exact isSatisfiedBy_after (fun _ => rfl) context params
  | notEqual => exact isSatisfiedBy_after (fun _ => rfl) context params
  | _ => cases tests

/-- A comparison with `null` in front is satisfied by nothing, unless it is a null test of
`null`. -/
theorem isSatisfiedBy_nullInFront (sign : Sign) (tests : sign.testsNull = true)
    (operand : Derivation .operand) (context : Context) (params : Parameters) :
    Specification.isSatisfiedBy
        ⟨template, sign.compare (.literal .null) operand.isNull (operand.tree false)⟩ context
        params =
      (valueOf (operand.tree false) context params).map fun v =>
        operand.isNull && sign.holdsOf v := by
  cases null : operand.isNull with
  | true =>
      obtain rfl := Derivation.eq_null null
      exact isSatisfiedBy_nullTest sign tests context params
  | false =>
      cases sign with
      | equal => exact isSatisfiedBy_null_between rfl context params
      | notEqual => exact isSatisfiedBy_null_between rfl context params
      | _ => cases tests

end Answers

/-! ## How the comparisons are read -/

theorem lexesTo_of_spelling {text : String} {lexemes : List Lexeme} {tokens : List Token}
    (tokenized : tokenize text = .ok lexemes)
    (spelled : lexemes.map Lexeme.token = tokens ++ [.eof]) :
    Lexer.LexesTo 0 text.toList tokens := by
  obtain ⟨found, same, lexed⟩ := lexesTo_of_tokenize tokenized
  obtain rfl : found = tokens := List.append_cancel_right (same.symm.trans spelled)
  exact lexed

/-- The template of a condition in parentheses. -/
def templateOf (condition : String) : String := "$[?(" ++ condition ++ ")]"

theorem parse_templateOf {condition : String} (comparison : Derivation .comparison)
    (reads : Lexer.Reads 0 (condition.toList ++ [')', ']'])
      (comparison.tokens ++ [.closeParen, .closeBracket]) []) :
    parse (templateOf condition) = .ok ⟨templateOf condition, comparison.tree false⟩ := by
  have whole : Lexer.Reads 0 (templateOf condition).toList
      (.dollar :: .openBracket :: .question :: .openParen ::
        (comparison.tokens ++ [.closeParen, .closeBracket])) [] := by
    have text : (templateOf condition).toList =
        '$' :: '[' :: '?' :: '(' :: (condition.toList ++ [')', ']']) := by simp [templateOf]
    rw [text]
    iterate 4 refine Lexer.Reads.mark ?_ (by simp [Lexer.loneMarks])
    exact reads
  obtain ⟨lexemes, tokenized, spelled⟩ := tokenize_of_reads whole
  let inner : Derivation .or := .or (.and (.plain comparison) .andEnd) .orEnd
  have read : Node.parse (templateOf condition) = .ok (comparison.tree false) := by
    refine (parse_eq_ok_iff tokenized).mpr
      ⟨.whole (.bracketed (.or (.and (.group inner) .andEnd) .orEnd)), ?_, rfl⟩
    rw [Spells, spelled]
    simp [inner]
  rw [parse, read]
  rfl

section Readings

variable {text : String} {operand : Derivation .operand} (sign : Sign)

theorem reads_closing (count : Nat) :
    Lexer.Reads count [')', ']'] [.closeParen, .closeBracket] [] := by
  iterate 2 refine Lexer.Reads.mark ?_ (by simp [Lexer.loneMarks])
  exact Lexer.reads_nil _ _

/-- A sign between blanks, whatever is read behind it. -/
theorem reads_sign_between {count : Nat} {back rest : List Char} {token : Token}
    {tokens : List Token} (h : Lexer.Reads count back (token :: tokens) rest) :
    Lexer.Reads count (' ' :: (sign.operator.symbol.toList ++ ' ' :: back))
      (sign.token :: token :: tokens) rest := by
  have plain : sign.token.positionalCount = 0 := by cases sign <;> rfl
  exact .cons plain ((reads_sign sign count _).blank (by decide)) (h.blank (by decide))

/-- With the `null` behind the sign, the comparison is read as such. -/
theorem parse_nullBehind (lexed : Lexer.LexesTo 0 text.toList operand.tokens) :
    parse (templateOf (sign.nullBehind text)) = .ok ⟨templateOf (sign.nullBehind text),
      sign.compare (operand.tree false) true (.literal .null)⟩ := by
  refine parse_templateOf (.pair operand sign (.atom .null)) ?_
  have null (count : Nat) : Lexer.Reads count ("null".toList ++ [')', ']'])
      [.null, .closeParen, .closeBracket] [] :=
    .cons rfl ((written_null count).reads _ (delimits_cons _ (by decide))) (reads_closing count)
  have both := lexed.append (.inl rfl) (reads_sign_between sign (null _))
  simpa [Sign.nullBehind, Atom.token] using both

/-- So it is with the `null` in front. -/
theorem parse_nullInFront (lexed : Lexer.LexesTo 0 text.toList operand.tokens) :
    parse (templateOf (sign.nullInFront text)) = .ok ⟨templateOf (sign.nullInFront text),
      sign.compare (.literal .null) operand.isNull (operand.tree false)⟩ := by
  refine parse_templateOf (.pair (.atom .null) sign operand) ?_
  have behind := lexed.append (.inr rfl) (reads_closing _)
  obtain ⟨next, more, spelled, -⟩ := operand.exists_tokens_eq_cons
  rw [spelled] at behind
  have both : Lexer.Reads 0 ("null".toList ++ _) (.null :: _) [] :=
    .cons rfl ((written_null 0).reads _ (delimits_cons _ (by decide)))
      (reads_sign_between sign behind)
  simpa [Sign.nullInFront, Atom.token, spelled] using both

end Readings

/-- With the same operand, the two comparisons come to the same just where the one behind the sign
is not satisfied, or the operand is `null` itself. -/
theorem map_holdsOf_eq_iff (answer : Except Error Value) (isNull : Bool) (sign : Sign) :
    answer.map sign.holdsOf = answer.map (fun v => isNull && sign.holdsOf v) ↔
      isNull = true ∨ ∀ v, answer = .ok v → sign.holdsOf v = false := by
  cases answer with
  | error e => simp [Except.map]
  | ok v => cases isNull <;> simp [Except.map]

/-- Null tests have their `null` behind the sign. In the tree of a template, no `==` and no `!=` has
the literal NULL as its right operand, and one of them has it as its left operand just if the text
has a `null` in front of such a sign and no other one behind it. So the two ways to write a
comparison with `null` are not the same: behind the sign, it asks whether the operand is NULL, and
in front of it, it asks nothing. Then the condition holds of no data, unless both operands are
`null`. It fails as the operand does in either way, and the two come to the same just where the null
test does not hold. -/
theorem null_tests_have_null_behind {template : String} {lexemes : List Lexeme} {tree : Node}
    (tokenized : tokenize template = .ok lexemes) (parsed : Node.parse template = .ok tree) :
    tree.anyNullBehind = false ∧
    tree.anyNullInFront = Token.anyNullInFront (lexemes.map Lexeme.token) ∧
    ∀ (text : String) (inner : List Lexeme) (operand : Derivation .operand) (sign : Sign),
      tokenize text = .ok inner → inner.map Lexeme.token = operand.tokens ++ [.eof] →
      sign.testsNull = true →
        ∃ behind inFront : Specification,
          parse (templateOf (sign.nullBehind text)) = .ok behind ∧
          parse (templateOf (sign.nullInFront text)) = .ok inFront ∧
          ∀ (context : Context) (params : Parameters),
            let answer := valueOf (operand.tree false) context params
            behind.isSatisfiedBy context params = answer.map sign.holdsOf ∧
            inFront.isSatisfiedBy context params =
              answer.map (fun v => operand.isNull && sign.holdsOf v) ∧
            (behind.isSatisfiedBy context params = inFront.isSatisfiedBy context params ↔
              operand.isNull = true ∨ ∀ v, answer = .ok v → sign.holdsOf v = false) := by
  obtain ⟨d, spells, rfl⟩ := (parse_eq_ok_iff tokenized).mp parsed
  have counted : Token.anyNullInFront (d.tokens ++ [.eof]) = (_ || Token.anyNullInFront [.eof]) :=
    d.anyNullInFront_tokens false trivial
  rw [Spells] at spells
  refine ⟨d.null_not_behind false, ?_, ?_⟩
  · rw [spells, counted]
    exact (Bool.or_false _).symm
  · intro text inner operand sign tokenized spelled tests
    have lexed := lexesTo_of_spelling tokenized spelled
    refine ⟨_, _, parse_nullBehind sign lexed, parse_nullInFront sign lexed, ?_⟩
    intro context params answer
    refine ⟨isSatisfiedBy_nullTest sign tests context params,
      isSatisfiedBy_nullInFront sign tests operand context params, ?_⟩
    rw [isSatisfiedBy_nullTest sign tests, isSatisfiedBy_nullInFront sign tests]
    exact map_holdsOf_eq_iff answer operand.isNull sign

/-- `!(null == $.closed) && $.visits[*][?@.seen == null]` as the grammar derives it. -/
def mixedNullsDerivation : Derivation .template :=
  let alone (comparison : Derivation .comparison) : Derivation .or :=
    .or (.and (.plain comparison) .andEnd) .orEnd
  let inFront : Derivation .comparison :=
    .pair (.atom .null) .equal (.field .document ["closed"] (by simp))
  let behind : Derivation .comparison :=
    .pair (.field .here ["seen"] (by simp)) .equal (.atom .null)
  let test : Derivation .operand := .test .document ["visits"] (by simp) (.bracketed (alone behind))
  .whole (.bracketed (.or (.and (.not (.group (alone inFront)))
    (.andMore (.plain (.single test)) .andEnd)) .orEnd))

/-- A `null` on either side in one template, and an operand that a parameter fills. -/
theorem null_tests_have_null_behind_quantity :
    (∃ tree, Node.parse "$[?!(null == $.closed) && $.visits[*][?@.seen == null]]" = .ok tree ∧
      tree.anyNullBehind = false ∧ tree.anyNullInFront = true) ∧
    ∃ behind inFront : Specification,
      parse "$[?(%d != null)]" = .ok behind ∧ parse "$[?(null != %d)]" = .ok inFront ∧
        behind.isSatisfiedBy (.ofEntries []) ⟨[.integer 3], []⟩ = .ok true ∧
        inFront.isSatisfiedBy (.ofEntries []) ⟨[.integer 3], []⟩ = .ok false := by
  have tokenized : tokenize "$[?!(null == $.closed) && $.visits[*][?@.seen == null]]" = .ok _ := rfl
  have parsed : Node.parse "$[?!(null == $.closed) && $.visits[*][?@.seen == null]]" = .ok _ :=
    (parse_eq_ok_iff tokenized).mpr ⟨mixedNullsDerivation, rfl, rfl⟩
  obtain ⟨behind, inFront, comparisons⟩ := null_tests_have_null_behind tokenized parsed
  refine ⟨⟨_, parsed, behind, inFront⟩, ?_⟩
  have quantity : tokenize "%d" = .ok _ := rfl
  obtain ⟨behind, inFront, readBehind, readInFront, answers⟩ := comparisons "%d" _
    (.atom (.placeholder ⟨.position 0, .integer⟩)) .notEqual quantity rfl rfl
  obtain ⟨known, unknown, -⟩ := answers (.ofEntries []) ⟨[.integer 3], []⟩
  exact ⟨behind, inFront, readBehind, readInFront, known, unknown⟩

/-- So a `null` in front of `==` is left in the tree as an operand, and where the mark of deletion
is NULL the one comparison holds and the other one does not. -/
theorem null_in_front_is_no_null_test :
    ∃ behind inFront : Specification,
      parse "$[?(@.deleted == null)]" = .ok behind ∧ parse "$[?(null == @.deleted)]" = .ok inFront ∧
        inFront.tree.anyNullInFront = true ∧
        behind.isSatisfiedBy (.ofEntries [("deleted", .null)]) .empty = .ok true ∧
        inFront.isSatisfiedBy (.ofEntries [("deleted", .null)]) .empty = .ok false := by
  let deleted : Derivation .operand := .field .here ["deleted"] (by simp)
  obtain ⟨lexemes, tokenized, spelled⟩ : ∃ lexemes, tokenize "@.deleted" = .ok lexemes ∧
      lexemes.map Lexeme.token = deleted.tokens ++ [.eof] := ⟨_, rfl, rfl⟩
  have lexed := lexesTo_of_spelling tokenized spelled
  have known : valueOf (deleted.tree false) (.ofEntries [("deleted", .null)]) .empty = .ok .null :=
    rfl
  have behind := parse_nullBehind .equal lexed
  have inFront := parse_nullInFront .equal lexed
  refine ⟨_, _, behind, inFront, rfl, ?_, ?_⟩
  · exact (isSatisfiedBy_nullTest .equal rfl _ _).trans (congrArg _ known)
  · exact (isSatisfiedBy_nullInFront .equal rfl deleted _ _).trans (congrArg _ known)

end Specification

end DataFilter
