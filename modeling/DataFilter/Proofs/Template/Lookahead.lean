import DataFilter.Proofs.Template.Acceptance

/-!
# Rules look one token ahead

A rule takes tokens off the front, and what it takes and gives does not depend on what it leaves,
but for the first token of it. So where the rest is replaced by another one that begins alike, the
rule does the same, also if it fails: an error is met again, whatever stands behind the token that
caused it (`follows_template`).

The rules that call themselves are bounded by the number of tokens, and the replaced rest may have
another length. So there are two rules to be compared, one for the tokens that are there and another
one for at most `n` of them.
-/

namespace DataFilter.Grammar

variable {α β : Type}

/-- The tokens that a run leaves. -/
def remaining : Except Mismatch (α × List Token) → List Token
  | .ok (_, rest) => rest
  | .error m => m.remaining

/-- The same outcome with other tokens left. -/
def relay : Except Mismatch (α × List Token) → List Token → Except Mismatch (α × List Token)
  | .ok (a, _), rest => .ok (a, rest)
  | .error m, rest => .error ⟨m.wanted, rest⟩

/-- The run has taken a front of the tokens, and the rule does the same wherever this front stands
before tokens that begin like those that are left, if they are at most `n` together. -/
def Relayed (n : Nat) (rule : Rule α) (tokens : List Token)
    (run : Except Mismatch (α × List Token)) : Prop :=
  ∃ front, tokens = front ++ remaining run ∧
    ∀ rest, rest.head? = (remaining run).head? → (front ++ rest).length ≤ n →
      rule (front ++ rest) = relay run rest

/-- What the first rule does with at most `m` tokens, the second one does with at most `n`. -/
def Follows (m n : Nat) (x y : Rule α) : Prop :=
  ∀ tokens, tokens.length ≤ m → Relayed n y tokens (x tokens)

/-! ## Rules in sequence -/

section Sequence

variable {m n : Nat} {x y : Rule α} {f g : α → Rule β} {tokens : List Token}
  {run : Except Mismatch (α × List Token)}

theorem bind_error {e : Mismatch} (h : x tokens = .error e) : (x >>= f) tokens = .error e := by
  show Except.bind (x tokens) _ = _
  rw [h]
  rfl

theorem head?_append_of_head? {front rest others : List Token} (same : rest.head? = others.head?) :
    (front ++ rest).head? = (front ++ others).head? := by
  rw [List.head?_append, List.head?_append, same]

theorem Relayed.mono {k : Nat} (h : Relayed n y tokens run) (hk : k ≤ n) :
    Relayed k y tokens run := by
  obtain ⟨front, split, again⟩ := h
  exact ⟨front, split, fun rest same bound => again rest same (Nat.le_trans bound hk)⟩

theorem Follows.mono {j k : Nat} (h : Follows m n x y) (hj : j ≤ m) (hk : k ≤ n) :
    Follows j k x y :=
  fun tokens bound => (h tokens (Nat.le_trans bound hj)).mono hk

/-- A rule that takes nothing decides by the first token. -/
theorem Relayed.here (left : remaining run = tokens)
    (again : ∀ rest, rest.head? = tokens.head? → y rest = relay run rest) :
    Relayed n y tokens run := by
  subst left
  exact ⟨[], rfl, fun rest same _ => again rest same⟩

/-- Where no tokens may be, nothing is asked for. -/
theorem Relayed.zero (h : Relayed n y tokens run) (nonempty : tokens ≠ []) (rule : Rule α) :
    Relayed 0 rule tokens run := by
  obtain ⟨front, split, -⟩ := h
  refine ⟨front, split, fun rest same bound => absurd ?_ nonempty⟩
  obtain ⟨rfl, rfl⟩ := List.append_eq_nil_iff.mp (List.length_eq_zero_iff.mp (Nat.le_zero.mp bound))
  rw [split, List.head?_eq_none_iff.mp same.symm]
  rfl

/-- A rule may take off a first token and go on as another rule. -/
theorem Relayed.cons {token : Token} (h : Relayed n y tokens run) {rule : Rule α}
    (step : ∀ rest, rule (token :: rest) = y rest) : Relayed (n + 1) rule (token :: tokens) run := by
  obtain ⟨front, split, again⟩ := h
  refine ⟨token :: front, congrArg _ split, fun rest same bound => ?_⟩
  rw [List.cons_append, List.length_cons] at bound
  rw [List.cons_append, step]
  exact again rest same (by omega)

theorem Relayed.bind (hx : Relayed n y tokens (x tokens))
    (hf : ∀ a middle, middle.length ≤ tokens.length → Relayed n (g a) middle (f a middle)) :
    Relayed n (y >>= g) tokens ((x >>= f) tokens) := by
  obtain ⟨front, split, again⟩ := hx
  cases result : x tokens with
  | error e =>
      rw [result] at split again
      rw [bind_error result]
      exact ⟨front, split, fun rest same bound => bind_error (again rest same bound)⟩
  | ok found =>
      obtain ⟨a, middle⟩ := found
      rw [result] at split again
      have shorter : middle.length ≤ tokens.length := by
        rw [split, List.length_append]
        exact Nat.le_add_left _ _
      obtain ⟨back, inner, behind⟩ := hf a middle shorter
      rw [bind_apply result]
      refine ⟨front ++ back, ?_, fun rest same bound => ?_⟩
      · rw [List.append_assoc, ← inner]
        exact split
      · have first : (back ++ rest).head? = middle.head? := by
          rw [inner]
          exact head?_append_of_head? same
        rw [List.append_assoc] at bound ⊢
        rw [bind_apply (again _ first bound)]
        refine behind rest same ?_
        rw [List.length_append] at bound
        omega

theorem Follows.bind (hx : Follows m n x y) (hf : ∀ a, Follows m n (f a) (g a)) :
    Follows m n (x >>= f) (y >>= g) :=
  fun tokens bound => (hx tokens bound).bind fun a middle shorter =>
    hf a middle (Nat.le_trans shorter bound)

theorem Follows.pure (a : α) : Follows m n (pure a : Rule α) (pure a) :=
  fun _ _ => .here rfl fun _ _ => rfl

theorem Follows.refuse (wanted : String) :
    Follows m n (refuse wanted : Rule α) (Grammar.refuse wanted) :=
  fun _ _ => .here rfl fun _ _ => rfl

/-- A rule may look at the first token. -/
theorem Follows.ofHead {x y : Option Token → Rule α} (h : ∀ first, Follows m n (x first) (y first)) :
    Follows m n (fun tokens => x tokens.head? tokens) fun tokens => y tokens.head? tokens := by
  intro tokens bound
  obtain ⟨front, split, again⟩ := h tokens.head? tokens bound
  refine ⟨front, split, fun rest same bound' => ?_⟩
  have first : (front ++ rest).head? = tokens.head? := by
    rw [head?_append_of_head? same, ← split]
  show y (front ++ rest).head? (front ++ rest) = _
  rw [first]
  exact again rest same bound'

/-- A rule may be bounded by the number of tokens. -/
theorem Follows.ofLength {x y : Nat → Rule α}
    (h : ∀ j k, j ≤ m → k ≤ n → Follows j k (x j) (y k)) :
    Follows m n (fun tokens => x tokens.length tokens) fun tokens => y tokens.length tokens := by
  intro tokens bound
  obtain ⟨front, split, -⟩ := h tokens.length 0 bound (Nat.zero_le n) tokens (Nat.le_refl _)
  refine ⟨front, split, fun rest same bound' => ?_⟩
  -- the front does not depend on what the second rule is bounded by
  obtain ⟨front', split', again⟩ := h tokens.length (front ++ rest).length bound bound' tokens
    (Nat.le_refl _)
  obtain rfl : front' = front := List.append_cancel_right (split'.symm.trans split)
  exact again rest same (Nat.le_refl _)

end Sequence

/-! ## Single tokens and paths -/

theorem expect_of_head {token : Token} {tokens : List Token} (other : tokens.head? ≠ some token) :
    expect token tokens = .error ⟨token.describe, tokens⟩ := by
  unfold expect
  split
  · rename_i first rest
    rw [if_neg fun same => other (congrArg some same)]
    rfl
  · rfl

theorem follows_expect (token : Token) {m n : Nat} : Follows m n (expect token) (expect token) := by
  intro tokens _
  by_cases here : tokens.head? = some token
  · obtain ⟨rest, rfl⟩ := List.head?_eq_some_iff.mp here
    rw [expect_cons]
    exact ⟨[token], rfl, fun rest _ _ => expect_cons token rest⟩
  · rw [expect_of_head here]
    exact .here rfl fun rest same => expect_of_head (same ▸ here)

/-- No path begins without a point. -/
theorem names_of_head {tokens : List Token} (h : tokens.head? ≠ some .dot) :
    names tokens = .ok ([], tokens) := by
  cases tokens with
  | nil => rfl
  | cons token rest => cases token <;> first | rfl | exact absurd rfl h

/-- Behind a point there is a name. -/
theorem names_dot {tokens : List Token} (h : ∀ name, tokens.head? ≠ some (.identifier name)) :
    names (.dot :: tokens) = .error ⟨"a field name", tokens⟩ := by
  cases tokens with
  | nil => rfl
  | cons token rest => cases token <;> first | rfl | exact absurd rfl (h _)

theorem follows_names {m n : Nat} : Follows m n (names : Rule (List String)) names := by
  intro tokens bound
  induction tokens using names.induct with
  | case1 name tokens ih =>
      let another : List String → Rule (List String) := fun more => pure (name :: more)
      have step (rest : List Token) : names (.dot :: .identifier name :: rest) =
          (StateT.bind names another : Rule (List String)) rest := rfl
      rw [List.length_cons, List.length_cons] at bound
      have inner : Relayed n (StateT.bind names another : Rule (List String)) tokens
          ((StateT.bind names another : Rule (List String)) tokens) :=
        (ih (by omega)).bind fun more middle _ =>
          (Follows.pure (m := m) (name :: more) : Follows m n _ _) middle (by omega)
      have behind : Relayed (n + 1) (fun rest => names (.dot :: rest)) (.identifier name :: tokens)
          (names (.dot :: .identifier name :: tokens)) := inner.cons step
      exact (behind.cons fun _ => rfl).mono (by omega)
  | case2 tokens unnamed =>
      have other : ∀ name, tokens.head? ≠ some (.identifier name) := by
        intro name first
        obtain ⟨rest, rfl⟩ := List.head?_eq_some_iff.mp first
        exact unnamed _ _ rfl
      rw [names_dot other]
      exact ⟨[.dot], rfl, fun rest same _ => names_dot (same ▸ other)⟩
  | case3 tokens _ pointless =>
      have other : tokens.head? ≠ some .dot := by
        intro first
        obtain ⟨rest, rfl⟩ := List.head?_eq_some_iff.mp first
        exact pointless _ rfl
      rw [names_of_head other]
      exact .here rfl fun rest same => names_of_head (same ▸ other)

/-! ## Chains -/

section Chain

variable {m n : Nat} {item item' : Rule Node} {separator : Token} {join : Node → Node → Node}

theorem moreItems_of_head (count : Nat) (left : Node) {tokens : List Token}
    (other : tokens.head? ≠ some separator) :
    moreItems item separator join count left tokens = .ok (left, tokens) := by
  refine moreItems_end item separator join count left fun token hmem same => other ?_
  rw [Option.mem_def.mp hmem, same]

theorem follows_moreItems (h : Follows m n item item') (j k : Nat) (left : Node) (hj : j ≤ m)
    (hk : k ≤ n) : Follows j k (moreItems item separator join j left)
      (moreItems item' separator join k left) := by
  induction j generalizing k left with
  | zero =>
      intro tokens bound
      obtain rfl := List.length_eq_zero_iff.mp (Nat.le_zero.mp bound)
      refine .here rfl fun rest same => ?_
      obtain rfl : rest = [] := by simpa using same
      exact moreItems_of_head k left nofun
  | succ j ih =>
      intro tokens bound
      by_cases here : tokens.head? = some separator
      · obtain ⟨rest, rfl⟩ := List.head?_eq_some_iff.mp here
        rw [List.length_cons] at bound
        have inner := ((h.mono (by omega) (by omega)).bind fun right =>
          ih (k - 1) (join left right) (by omega) (by omega)) rest (by omega)
        have whole := inner.cons (moreItems_step (k - 1) left)
        rw [← moreItems_step] at whole
        cases k with
        | zero => exact whole.zero (List.cons_ne_nil _ _) _
        | succ k => exact whole
      · rw [moreItems_of_head _ _ here]
        exact .here rfl fun rest same => moreItems_of_head _ _ (same ▸ here)

theorem follows_chain (h : Follows m n item item') :
    Follows m n (chain item separator join) (chain item' separator join) :=
  h.bind fun first => .ofLength fun j k hj hk => follows_moreItems h j k first hj hk

end Chain

/-! ## The rules around `Grammar.unary` -/

section Around

variable {m n : Nat} {inner inner' : Rule Node}

theorem follows_condition (h : Follows m n inner inner') :
    Follows m n (condition inner) (condition inner') :=
  follows_chain (follows_chain h)

theorem follows_filter (h : Follows m n inner inner') : Follows m n (filter inner) (filter inner') :=
  (follows_expect _).bind fun _ => (follows_expect _).bind fun _ =>
    (follows_condition h).bind fun found => (follows_expect _).bind fun _ => .pure found

theorem follows_elementTest (h : Follows m n inner inner') :
    Follows m n (elementTest inner) (elementTest inner') :=
  (follows_expect _).bind fun _ => (follows_expect _).bind fun _ =>
    (follows_expect _).bind fun _ => follows_filter h

/-- What comes behind the path of a reference. -/
def behindPath (elementUnary : Rule Node) (root : Node) (path : List String)
    (first : Option Token) : Rule Node :=
  match path.getLast?, first with
  | none, _ => refuse Token.dot.describe
  | some _, some .openBracket => do
    let predicate ← elementTest elementUnary
    pure (.collection (scope root path) predicate)
  | some name, _ => pure (.field (scope root path.dropLast) name)

theorem access_eq (elementUnary : Rule Node) (root : Node) : access elementUnary root =
    names >>= fun path tokens => behindPath elementUnary root path tokens.head? tokens := rfl

theorem follows_access (h : Follows m n inner inner') (root : Node) :
    Follows m n (access inner root) (access inner' root) := by
  rw [access_eq, access_eq]
  refine follows_names.bind fun path => ?_
  refine Follows.ofHead (x := behindPath inner root path) (y := behindPath inner' root path)
    fun first => ?_
  unfold behindPath
  cases path.getLast? with
  | none => exact .refuse _
  | some name =>
      by_cases bracket : first = some .openBracket
      · subst bracket
        exact (follows_elementTest h).bind fun predicate => .pure _
      · simp only
        exact .pure _

theorem operand_of_head (elementUnary : Rule Node) (inTest : Bool) {tokens : List Token}
    (plain : tokens.head? ≠ some .dollar ∧ tokens.head? ≠ some .atSign)
    (other : tokens.head?.bind literal? = none) :
    operand elementUnary inTest tokens = .error ⟨"a value or field reference", tokens⟩ := by
  cases tokens with
  | nil => rfl
  | cons token rest =>
      cases token <;> first | exact absurd rfl plain.1 | exact absurd rfl plain.2 | rfl | cases other

theorem follows_operand (h : Follows m n inner inner') (inTest : Bool) :
    Follows (m + 1) (n + 1) (operand inner inTest) (operand inner' inTest) := by
  intro tokens bound
  cases tokens with
  | nil =>
      refine .here rfl fun rest same => ?_
      obtain rfl : rest = [] := by simpa using same
      rfl
  | cons token rest =>
      rw [List.length_cons] at bound
      cases found : literal? token with
      | some node =>
          obtain ⟨a, rfl, rfl⟩ := exists_atom found
          rw [operand_atom]
          exact ⟨[a.token], rfl, fun rest _ _ => operand_atom _ _ a rest⟩
      | none =>
          by_cases root : ∃ anchor : Anchor, token = anchor.token
          · obtain ⟨anchor, rfl⟩ := root
            rw [operand_anchor]
            exact (follows_access h _ rest (by omega)).cons (operand_anchor inner' inTest anchor)
          · have plain : token ≠ .dollar ∧ token ≠ .atSign :=
              ⟨fun same => root ⟨.document, same⟩, fun same => root ⟨.here, same⟩⟩
            have refused {tokens : List Token} (first : tokens.head? = some token)
                (elementUnary : Rule Node) : operand elementUnary inTest tokens =
                  .error ⟨"a value or field reference", tokens⟩ :=
              operand_of_head _ _ (by simpa [first] using plain) (by simp [first, found])
            rw [refused rfl]
            exact .here rfl fun rest same => refused same _

/-- What comes behind the sign of a comparison. -/
def behindSign (elementUnary : Rule Node) (inTest : Bool) (left : Node) (sign : Sign)
    (first : Option Token) : Rule Node :=
  if first = some .null then do
    expect .null
    pure (sign.compare left true (.literal .null))
  else do
    let right ← operand elementUnary inTest
    pure (.between left sign.operator right)

theorem comparisonTail_sign (elementUnary : Rule Node) (inTest : Bool) (left : Node) (sign : Sign)
    (rest : List Token) : comparisonTail elementUnary inTest left (sign.token :: rest) =
      behindSign elementUnary inTest left sign rest.head? rest := by
  by_cases null : rest.head? = some .null
  · obtain ⟨rest, rfl⟩ := List.head?_eq_some_iff.mp null
    rw [comparisonTail_null, behindSign, if_pos null, bind_apply (expect_cons _ _)]
    rfl
  · rw [behindSign, if_neg null]
    cases result : operand elementUnary inTest rest with
    | error e =>
        rw [bind_error result]
        have step : ∀ op, comparison? sign.token = some op →
            comparisonTail elementUnary inTest left (sign.token :: rest) =
              (operand elementUnary inTest rest).bind fun found =>
                .ok (.between left op found.1, found.2) := by
          intro op hop
          simp only [comparisonTail, hop]
          split
          · exact absurd rfl null
          · rfl
        rw [step sign.operator (by cases sign <;> rfl), result]
        rfl
    | ok found =>
        obtain ⟨right, after⟩ := found
        have not_null : ∀ token ∈ rest.head?, token ≠ .null := by
          rintro token hmem rfl
          exact null hmem
        rw [comparisonTail_operand _ _ _ _ _ not_null result, bind_apply result]
        cases sign <;> rfl

theorem comparisonTail_of_head (elementUnary : Rule Node) (inTest : Bool) (left : Node)
    {tokens : List Token} (other : tokens.head?.bind comparison? = none) :
    comparisonTail elementUnary inTest left tokens = .ok (left, tokens) := by
  cases tokens with
  | nil => rfl
  | cons token rest =>
      have none_found : comparison? token = none := other
      simp only [comparisonTail, none_found]

theorem follows_comparisonTail (h : Follows m n inner inner') (inTest : Bool) (left : Node) :
    Follows (m + 1) (n + 1) (comparisonTail inner inTest left)
      (comparisonTail inner' inTest left) := by
  intro tokens bound
  cases found : tokens.head?.bind comparison? with
  | none =>
      rw [comparisonTail_of_head _ _ _ found]
      exact .here rfl fun rest same => comparisonTail_of_head _ _ _ (same ▸ found)
  | some op =>
      obtain ⟨token, first, compares⟩ := Option.bind_eq_some_iff.mp found
      obtain ⟨rest, rfl⟩ := List.head?_eq_some_iff.mp first
      obtain ⟨sign, rfl, -⟩ := exists_sign compares
      rw [List.length_cons] at bound
      have behind : Follows m n (fun tokens => behindSign inner inTest left sign tokens.head? tokens)
          fun tokens => behindSign inner' inTest left sign tokens.head? tokens := by
        refine .ofHead fun first => ?_
        unfold behindSign
        split
        · exact (follows_expect _).bind fun _ => .pure _
        · exact ((follows_operand h inTest).mono (by omega) (by omega)).bind fun right => .pure _
      rw [comparisonTail_sign]
      exact (behind rest (by omega)).cons (comparisonTail_sign inner' inTest left sign)

theorem follows_comparison (h : Follows m n inner inner') (inTest : Bool) :
    Follows (m + 1) (n + 1) (comparison inner inTest) (comparison inner' inTest) :=
  (follows_operand h inTest).bind (follows_comparisonTail h inTest)

end Around

/-! ## The rules that call themselves -/

theorem unary_nil (count : Nat) (inTest : Bool) :
    unary count inTest [] = .error ⟨"a value or field reference", []⟩ := by
  cases count <;> rfl

theorem follows_unary (m n : Nat) (inTest : Bool) :
    Follows m n (unary m inTest) (unary n inTest) := by
  induction m generalizing n inTest with
  | zero =>
      intro tokens bound
      obtain rfl := List.length_eq_zero_iff.mp (Nat.le_zero.mp bound)
      refine .here rfl fun rest same => ?_
      obtain rfl : rest = [] := by simpa using same
      exact unary_nil n inTest
  | succ m ih =>
      intro tokens bound
      by_cases empty : tokens = []
      · subst empty
        refine .here rfl fun rest same => ?_
        obtain rfl : rest = [] := by simpa using same
        exact unary_nil n inTest
      -- the rule for at most `n` tokens, of which there is at least one
      have some_left : Relayed (n - 1 + 1) (unary (n - 1 + 1) inTest) tokens
          (unary (m + 1) inTest tokens) := by
        by_cases bang : tokens.head? = some .bang
        · obtain ⟨rest, rfl⟩ := List.head?_eq_some_iff.mp bang
          rw [List.length_cons] at bound
          rw [unary_bang]
          have inner := (ih (n - 1) inTest).bind fun operand =>
            .pure (Node.not operand)
          exact (inner rest (by omega)).cons (unary_bang (n - 1) inTest)
        by_cases paren : tokens.head? = some .openParen
        · obtain ⟨rest, rfl⟩ := List.head?_eq_some_iff.mp paren
          rw [List.length_cons] at bound
          rw [unary_openParen]
          have inner := (follows_condition (ih (n - 1) inTest)).bind fun inner =>
            (follows_expect .closeParen).bind fun _ => .pure inner
          exact (inner rest (by omega)).cons (unary_openParen (n - 1) inTest)
        · rw [unary_of_head m inTest bang paren]
          obtain ⟨front, split, again⟩ :=
            follows_comparison (ih (n - 1) true) inTest tokens bound
          refine ⟨front, split, fun rest same bound' => ?_⟩
          have first : (front ++ rest).head? = tokens.head? := by
            rw [head?_append_of_head? same, ← split]
          rw [unary_of_head _ _ (first ▸ bang) (first ▸ paren)]
          exact again rest same bound'
      cases n with
      | zero => exact some_left.zero empty _
      | succ n => exact some_left

/-- The body of a template, for at most so many tokens. -/
def templateBodyOf (count : Nat) (first : Option Token) : Rule Node :=
  if first = some .dot then do
    let path ← names
    let predicate ← elementTest (unary count true)
    pure (.collection (scope .globalScope path) predicate)
  else filter (unary count false)

theorem templateBody_eq :
    templateBody = fun tokens => templateBodyOf tokens.length tokens.head? tokens := by
  funext tokens
  unfold templateBody
  rw [bind_apply (x := get) rfl]
  cases tokens with
  | nil => rfl
  | cons token rest => cases token <;> rfl

theorem follows_templateBody (m n : Nat) : Follows m n templateBody templateBody := by
  rw [templateBody_eq]
  refine Follows.ofLength (x := fun count tokens => templateBodyOf count tokens.head? tokens)
    (y := fun count tokens => templateBodyOf count tokens.head? tokens) fun j k _ _ => ?_
  refine Follows.ofHead fun first => ?_
  unfold templateBodyOf
  split
  · exact follows_names.bind fun path =>
      (follows_elementTest (follows_unary j k true)).bind fun predicate => .pure _
  · exact follows_filter (follows_unary j k false)

/-- Whatever stands behind the first token that is left, a template is read or refused alike. -/
theorem follows_template (m n : Nat) : Follows m n template template :=
  (follows_expect _).bind fun _ => (follows_templateBody m n).bind fun tree =>
    (follows_expect _).bind fun _ => .pure tree

end DataFilter.Grammar
