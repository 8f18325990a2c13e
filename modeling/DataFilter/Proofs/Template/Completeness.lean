import DataFilter.Proofs.Template.Rules

/-!
# What the grammar derives, the rules accept

Each rule of the grammar takes off exactly the tokens of a derivation, whatever follows, as long as
the next token does not prolong it. This is stated for the whole family of derivations at once
(`Accepted`), since the productions refer to each other; the bound of `Grammar.unary` has to cover
the tokens of the derivation, and every production uses up at least one of them before it comes back
to `Grammar.unary`.
-/

namespace DataFilter.Grammar

/-! ## Chains -/

theorem moreItems_end (item : Rule Node) (separator : Token) (join : Node → Node → Node)
    (n : Nat) (left : Node) {rest : List Token} (h : ∀ token ∈ rest.head?, token ≠ separator) :
    moreItems item separator join n left rest = .ok (left, rest) := by
  cases n with
  | zero => rfl
  | succ n =>
      cases rest with
      | nil => rfl
      | cons token rest => simp [moreItems, h token (by simp)]

/-- A chain whose first item is taken off is what is read on from that item. -/
theorem chain_first {item : Rule Node} {separator : Token} {join : Node → Node → Node}
    {tokens more after : List Token} {first : Node} {outcome : Except Mismatch (Node × List Token)}
    (h : item (tokens ++ (more ++ after)) = .ok (first, more ++ after))
    (others : ∀ n, more.length ≤ n →
      moreItems item separator join n first (more ++ after) = outcome) :
    chain item separator join ((tokens ++ more) ++ after) = outcome := by
  rw [List.append_assoc, chain_apply h]
  exact others _ (by simp)

/-- Behind a separator the next item is taken off and joined to those before it. -/
theorem moreItems_next {item : Rule Node} {separator : Token} {join : Node → Node → Node}
    {tokens more after : List Token} {left next : Node} {n : Nat}
    {outcome : Except Mismatch (Node × List Token)}
    (enough : (separator :: tokens ++ more).length ≤ n)
    (h : item (tokens ++ (more ++ after)) = .ok (next, more ++ after))
    (others : ∀ n, more.length ≤ n →
      moreItems item separator join n (join left next) (more ++ after) = outcome) :
    moreItems item separator join n left ((separator :: tokens ++ more) ++ after) = outcome := by
  rw [List.length_append, List.length_cons] at enough
  obtain ⟨m, rfl⟩ : ∃ m, n = m + 1 := ⟨n - 1, by omega⟩
  rw [List.append_assoc, List.cons_append, moreItems_step, bind_apply h]
  exact others m (by omega)

/-! ## The rules of the operands -/

/-- The names of a path are taken off up to where no point follows. -/
theorem names_pathTokens (path : List String) {rest : List Token}
    (h : ∀ token ∈ rest.head?, token ≠ .dot) :
    names (pathTokens path ++ rest) = .ok (path, rest) := by
  induction path with
  | nil =>
      cases rest with
      | nil => rfl
      | cons token rest =>
          cases token <;> first | rfl | simp at h
  | cons name path ih =>
      show Except.bind (names (pathTokens path ++ rest)) _ = _
      rw [ih]
      rfl

theorem access_field (elementUnary : Rule Node) (root : Node) (path : List String)
    (named : path ≠ []) {rest : List Token} (h : Ends 4 rest) :
    access elementUnary root (pathTokens path ++ rest) =
      .ok (.field (path.dropLast.foldl .object root) (path.getLast named), rest) := by
  have no_dot : ∀ token ∈ rest.head?, token ≠ .dot := h.ne (by decide)
  have no_bracket : rest.head? ≠ some .openBracket := by
    intro hmem
    exact absurd (h _ hmem) (by decide)
  rw [access_apply _ _ named (names_pathTokens path no_dot), if_neg no_bracket]

theorem access_test (elementUnary : Rule Node) (root predicate : Node) (path : List String)
    (named : path ≠ []) {tokens rest : List Token}
    (h : elementTest elementUnary (.openBracket :: tokens) = .ok (predicate, rest)) :
    access elementUnary root (pathTokens path ++ .openBracket :: tokens) =
      .ok (.collection (path.foldl .object root) predicate, rest) := by
  rw [access_apply _ _ named (names_pathTokens path (by simp)), if_pos List.head?_cons, bind_apply h]
  rfl

theorem operand_atom (elementUnary : Rule Node) (inTest : Bool) (a : Atom) (rest : List Token) :
    operand elementUnary inTest (a.token :: rest) = .ok (a.node, rest) := by
  cases a <;> rfl

theorem operand_anchor (elementUnary : Rule Node) (inTest : Bool) (anchor : Anchor)
    (rest : List Token) :
    operand elementUnary inTest (anchor.token :: rest) =
      access elementUnary (anchor.root inTest) rest := by
  cases anchor <;> rfl

/-- Behind an operand that is no part of a comparison nothing is taken off. -/
theorem comparisonTail_end (elementUnary : Rule Node) (inTest : Bool) (left : Node)
    {rest : List Token} (h : Ends 3 rest) :
    comparisonTail elementUnary inTest left rest = .ok (left, rest) := by
  cases rest with
  | nil => rfl
  | cons token rest =>
      cases token <;> first | rfl | simp [strength] at h

/-- The null test takes off the sign and the `null`. -/
theorem comparisonTail_null (elementUnary : Rule Node) (inTest : Bool) (left : Node) (sign : Sign)
    (rest : List Token) :
    comparisonTail elementUnary inTest left (sign.token :: .null :: rest) =
      .ok (sign.compare left true (.literal .null), rest) := by
  cases sign <;> rfl

/-- Any other right operand is read as an operand. -/
theorem comparisonTail_operand (elementUnary : Rule Node) (inTest : Bool) (left right : Node)
    (sign : Sign) {tokens rest : List Token} (not_null : ∀ token ∈ tokens.head?, token ≠ .null)
    (h : operand elementUnary inTest tokens = .ok (right, rest)) :
    comparisonTail elementUnary inTest left (sign.token :: tokens) =
      .ok (sign.compare left false right, rest) := by
  have step : ∀ op, comparison? sign.token = some op →
      comparisonTail elementUnary inTest left (sign.token :: tokens) =
        (operand elementUnary inTest tokens).bind fun found =>
          .ok (.between left op found.1, found.2) := by
    intro op hop
    simp only [comparisonTail, hop]
    split
    · exact absurd rfl (not_null _ rfl)
    · rfl
  rw [step sign.operator (by cases sign <;> rfl), h]
  cases sign <;> rfl


/-! ## All rules at once -/

/-- The rule of a derivation takes off its tokens and gives its meaning, whatever follows it and
however it is bounded, if the bound covers its tokens. The rest of a chain is read on from the items
before it. -/
def Accepted : (c : Category) → Derivation c → Prop
  | .template, d => ∀ rest, template (d.tokens ++ .eof :: rest) = .ok (d.tree false, rest)
  | .filter, d => ∀ count inTest rest, d.tokens.length ≤ count →
      filter (unary count inTest) (d.tokens ++ rest) = .ok (d.tree inTest, rest)
  | .or, d => ∀ count inTest rest, d.tokens.length ≤ count → Ends 1 rest →
      condition (unary count inTest) (d.tokens ++ rest) = .ok (d.tree inTest, rest)
  | .orRest, d => ∀ count inTest rest n left, d.tokens.length ≤ count → d.tokens.length ≤ n →
      Ends 1 rest →
      moreItems (conjunction (unary count inTest)) .orOr (fun l r => .or l [r]) n left
        (d.tokens ++ rest) = .ok (.or left (d.tree inTest), rest)
  | .and, d => ∀ count inTest rest, d.tokens.length ≤ count → Ends 2 rest →
      conjunction (unary count inTest) (d.tokens ++ rest) = .ok (d.tree inTest, rest)
  | .andRest, d => ∀ count inTest rest n left, d.tokens.length ≤ count → d.tokens.length ≤ n →
      Ends 2 rest →
      moreItems (unary count inTest) .andAnd (fun l r => .and l [r]) n left
        (d.tokens ++ rest) = .ok (.and left (d.tree inTest), rest)
  | .unary, d => ∀ count inTest rest, d.tokens.length ≤ count → Ends 3 rest →
      unary count inTest (d.tokens ++ rest) = .ok (d.tree inTest, rest)
  | .comparison, d => ∀ count inTest rest, d.tokens.length ≤ count + 1 → Ends 3 rest →
      comparison (unary count true) inTest (d.tokens ++ rest) = .ok (d.tree inTest, rest)
  | .operand, d => ∀ count inTest rest, d.tokens.length ≤ count + 1 → Ends 4 rest →
      operand (unary count true) inTest (d.tokens ++ rest) = .ok (d.tree inTest, rest)


theorem filter_apply {item : Rule Node} {tokens rest : List Token} {tree : Node}
    (h : condition item (tokens ++ .closeBracket :: rest) = .ok (tree, .closeBracket :: rest)) :
    filter item (.openBracket :: .question :: tokens ++ .closeBracket :: rest) =
      .ok (tree, rest) := by
  unfold filter
  rw [List.cons_append, bind_apply (expect_cons ..), List.cons_append,
    bind_apply (expect_cons ..), bind_apply h, bind_apply (expect_cons ..)]
  rfl

theorem elementTest_apply {item : Rule Node} {tokens rest : List Token} {tree : Node}
    (h : filter item tokens = .ok (tree, rest)) :
    elementTest item (anyElement ++ tokens) = .ok (tree, rest) := by
  unfold elementTest anyElement
  rw [List.cons_append, bind_apply (expect_cons ..), List.cons_append,
    bind_apply (expect_cons ..), List.cons_append, bind_apply (expect_cons ..)]
  exact h

theorem unary_not {count : Nat} {inTest : Bool} {tokens rest : List Token} {tree : Node}
    (h : unary count inTest tokens = .ok (tree, rest)) :
    unary (count + 1) inTest (.bang :: tokens) = .ok (.not tree, rest) := by
  rw [unary_bang, bind_apply h]
  rfl

theorem unary_group {count : Nat} {inTest : Bool} {tokens rest : List Token} {tree : Node}
    (h : condition (unary count inTest) tokens = .ok (tree, .closeParen :: rest)) :
    unary (count + 1) inTest (.openParen :: tokens) = .ok (tree, rest) := by
  rw [unary_openParen, bind_apply h, bind_apply (expect_cons ..)]
  rfl

theorem comparison_single {elementUnary : Rule Node} {inTest : Bool} {tokens rest : List Token}
    {tree : Node} (h : operand elementUnary inTest tokens = .ok (tree, rest)) (ends : Ends 3 rest) :
    comparison elementUnary inTest tokens = .ok (tree, rest) := by
  unfold comparison
  rw [bind_apply h]
  exact comparisonTail_end _ _ _ ends

/-- Behind the `$` of a template, a path leads to the elements that are tested. -/
theorem templateBody_test {path : List String} (named : path ≠ []) {tokens rest : List Token}
    {predicate : Node} (ends : ∀ token ∈ tokens.head?, token ≠ .dot)
    (h : elementTest (unary (pathTokens path ++ tokens).length true) tokens =
      .ok (predicate, rest)) :
    templateBody (pathTokens path ++ tokens) =
      .ok (.collection (path.foldl .object .globalScope) predicate, rest) := by
  obtain ⟨name, more, rfl⟩ := List.exists_cons_of_ne_nil named
  have hnames := names_pathTokens (name :: more) ends
  unfold templateBody
  rw [bind_apply (x := get) rfl]
  show (do
    let path ← names
    let predicate ← elementTest (unary (pathTokens (name :: more) ++ tokens).length true)
    pure (.collection (scope .globalScope path) predicate) : Rule Node) _ = _
  rw [bind_apply hnames, bind_apply h]
  rfl

theorem template_apply {tokens rest : List Token} {tree : Node}
    (h : templateBody tokens = .ok (tree, .eof :: rest)) :
    template (.dollar :: tokens) = .ok (tree, rest) := by
  unfold template
  rw [bind_apply (expect_cons ..), bind_apply h, bind_apply (expect_cons ..)]
  rfl

/-- What ends a part also does so behind further alternatives, unless `||` prolongs the part. -/
theorem Ends.orRest {n : Nat} {rest : List Token} (h : Ends n rest) (weak : 1 < n)
    (d : Derivation .orRest) : Ends n (d.tokens ++ rest) := by
  cases d with
  | orEnd => exact h
  | orMore next more => simpa [Derivation.tokens, strength] using weak

theorem Ends.andRest {n : Nat} {rest : List Token} (h : Ends n rest) (weak : 2 < n)
    (d : Derivation .andRest) : Ends n (d.tokens ++ rest) := by
  cases d with
  | andEnd => exact h
  | andMore next more => simpa [Derivation.tokens, strength] using weak

theorem ends_orRest (d : Derivation .orRest) {rest : List Token} (h : Ends 1 rest) :
    Ends 2 (d.tokens ++ rest) :=
  (h.mono (by decide)).orRest (by decide) d

theorem ends_andRest (d : Derivation .andRest) {rest : List Token} (h : Ends 2 rest) :
    Ends 3 (d.tokens ++ rest) :=
  (h.mono (by decide)).andRest (by decide) d

/-- An operand does not begin with a mark that another rule begins with. -/
theorem operand_head (d : Derivation .operand) :
    ∃ token more, d.tokens = token :: more ∧ token ≠ .bang ∧ token ≠ .openParen := by
  cases d with
  | atom a => exact ⟨a.token, [], rfl, by cases a <;> simp [Atom.token]⟩
  | field anchor path named => exact ⟨_, _, rfl, by cases anchor <;> simp [Anchor.token]⟩
  | test anchor path named filter => exact ⟨_, _, rfl, by cases anchor <;> simp [Anchor.token]⟩

theorem comparison_head (d : Derivation .comparison) :
    ∃ token more, d.tokens = token :: more ∧ token ≠ .bang ∧ token ≠ .openParen := by
  cases d with
  | single operand => exact operand_head operand
  | pair left sign right =>
      obtain ⟨token, more, htokens, hne⟩ := operand_head left
      exact ⟨token, more ++ sign.token :: right.tokens, by simp [Derivation.tokens, htokens], hne⟩

/-- Only the literal `null` begins with `null`. -/
theorem head_ne_null {d : Derivation .operand} (h : d.isNull = false) (rest : List Token) :
    ∀ token ∈ (d.tokens ++ rest).head?, token ≠ .null := by
  cases d with
  | atom a => cases a <;> simp_all [Derivation.tokens, Atom.token, Derivation.isNull]
  | field anchor path named => cases anchor <;> simp [Derivation.tokens, Anchor.token]
  | test anchor path named filter => cases anchor <;> simp [Derivation.tokens, Anchor.token]

/-- A derived comparison is read as one. -/
theorem unary_comparison (count : Nat) (inTest : Bool) (d : Derivation .comparison)
    (rest : List Token) :
    unary (count + 1) inTest (d.tokens ++ rest) =
      comparison (unary count true) inTest (d.tokens ++ rest) := by
  obtain ⟨token, more, htokens, no_bang, no_paren⟩ := comparison_head d
  rw [htokens]
  exact unary_of_head count inTest (by simpa using no_bang) (by simpa using no_paren)

theorem length_comparison_pos (d : Derivation .comparison) : 0 < d.tokens.length := by
  obtain ⟨token, more, htokens, -⟩ := comparison_head d
  rw [htokens]
  exact Nat.succ_pos _

/-- A `null` behind the sign is taken by the null test, before operands are tried. -/
theorem comparison_pair {elementUnary : Rule Node} {inTest : Bool} {tokens rest : List Token}
    {left : Node} (sign : Sign) (right : Derivation .operand)
    (hleft : operand elementUnary inTest (tokens ++ sign.token :: (right.tokens ++ rest)) =
      .ok (left, sign.token :: (right.tokens ++ rest)))
    (hright : operand elementUnary inTest (right.tokens ++ rest) =
      .ok (right.tree inTest, rest)) :
    comparison elementUnary inTest (tokens ++ sign.token :: (right.tokens ++ rest)) =
      .ok (sign.compare left right.isNull (right.tree inTest), rest) := by
  unfold comparison
  rw [bind_apply hleft]
  cases hnull : right.isNull with
  | false => exact comparisonTail_operand _ _ _ _ _ (head_ne_null hnull rest) hright
  | true =>
      obtain rfl := Derivation.eq_null hnull
      exact comparisonTail_null _ _ _ _ _

/-- Every derivation is followed by the rule of its category. -/
theorem accepted {c : Category} (d : Derivation c) : Accepted c d := by
  -- what follows a part of the tokens is the rest of them, which must not prolong the part
  induction d with
  | whole filter ih =>
      intro rest
      cases filter with
      | bracketed condition =>
          exact template_apply
            (ih (condition.bracketed.tokens ++ .eof :: rest).length false _ (by simp))
  | elements path named filter ih =>
      intro rest
      have inner := elementTest_apply (ih
        (pathTokens path ++ (anyElement ++ (filter.tokens ++ .eof :: rest))).length true
        (.eof :: rest) (by simp only [List.length_append]; omega))
      have body := templateBody_test named (by simp [anyElement]) inner
      show template (.dollar :: ((pathTokens path ++ anyElement ++ filter.tokens) ++ .eof :: rest)) =
        .ok (.collection (path.foldl .object .globalScope) (filter.tree true), rest)
      rw [List.append_assoc, List.append_assoc]
      exact template_apply body
  | bracketed condition ih =>
      intro count inTest rest hcount
      simp only [Derivation.tokens, List.length_append, List.length_cons, List.length_nil] at hcount
      have inner := ih count inTest (.closeBracket :: rest) (by omega) (by simp [strength])
      show Grammar.filter (unary count inTest)
        ((.openBracket :: .question :: condition.tokens ++ [.closeBracket]) ++ rest) =
          .ok (condition.tree inTest, rest)
      rw [List.append_assoc]
      exact filter_apply inner
  | or first rest ihFirst ihRest =>
      intro count inTest after hcount hends
      simp only [Derivation.tokens, List.length_append] at hcount
      refine chain_first (ihFirst count inTest _ (by omega) (ends_orRest rest hends)) ?_
      intro n hn
      exact ihRest count inTest after n _ (by omega) hn hends
  | orEnd =>
      intro count inTest after n left _ _ hends
      exact moreItems_end _ _ _ n left (hends.ne (by decide))
  | orMore next rest ihNext ihRest =>
      intro count inTest after n left hcount hn hends
      simp only [Derivation.tokens, List.length_append, List.length_cons] at hcount
      refine moreItems_next hn (ihNext count inTest _ (by omega) (ends_orRest rest hends)) ?_
      intro m hm
      exact ihRest count inTest after m _ (by omega) hm hends
  | and first rest ihFirst ihRest =>
      intro count inTest after hcount hends
      simp only [Derivation.tokens, List.length_append] at hcount
      refine chain_first (ihFirst count inTest _ (by omega) (ends_andRest rest hends)) ?_
      intro n hn
      exact ihRest count inTest after n _ (by omega) hn hends
  | andEnd =>
      intro count inTest after n left _ _ hends
      exact moreItems_end _ _ _ n left (hends.ne (by decide))
  | andMore next rest ihNext ihRest =>
      intro count inTest after n left hcount hn hends
      simp only [Derivation.tokens, List.length_append, List.length_cons] at hcount
      refine moreItems_next hn (ihNext count inTest _ (by omega) (ends_andRest rest hends)) ?_
      intro m hm
      exact ihRest count inTest after m _ (by omega) hm hends
  | not operand ih =>
      intro count inTest rest hcount hends
      simp only [Derivation.tokens, List.length_cons] at hcount
      obtain ⟨m, rfl⟩ : ∃ m, count = m + 1 := ⟨count - 1, by omega⟩
      exact unary_not (ih m inTest rest (by omega) hends)
  | group condition ih =>
      intro count inTest rest hcount hends
      simp only [Derivation.tokens, List.length_append, List.length_cons, List.length_nil] at hcount
      obtain ⟨m, rfl⟩ : ∃ m, count = m + 1 := ⟨count - 1, by omega⟩
      have inner := ih m inTest (.closeParen :: rest) (by omega) (by simp [strength])
      show unary (m + 1) inTest
        (.openParen :: ((condition.tokens ++ [.closeParen]) ++ rest)) = _
      rw [List.append_assoc]
      exact unary_group inner
  | plain comparison ih =>
      intro count inTest rest hcount hends
      have hpos := length_comparison_pos comparison
      change comparison.tokens.length ≤ count at hcount
      obtain ⟨m, rfl⟩ : ∃ m, count = m + 1 := ⟨count - 1, by omega⟩
      exact (unary_comparison m inTest comparison rest).trans (ih m inTest rest (by omega) hends)
  | single operand ih =>
      intro count inTest rest hcount hends
      exact comparison_single (ih count inTest rest hcount (hends.mono (by omega))) hends
  | pair left sign right ihLeft ihRight =>
      intro count inTest rest hcount hends
      simp only [Derivation.tokens, List.length_append, List.length_cons] at hcount
      have hleft := ihLeft count inTest (sign.token :: (right.tokens ++ rest)) (by omega) (by simp)
      have hright := ihRight count inTest rest (by omega) (hends.mono (by omega))
      rw [Derivation.tokens, List.append_assoc]
      exact comparison_pair sign right hleft hright
  | atom a =>
      intro count inTest rest _ _
      exact operand_atom _ _ _ _
  | field anchor path named =>
      intro count inTest rest _ hends
      exact (operand_anchor _ _ _ _).trans (access_field _ _ path named hends)
  | test anchor path named filter ih =>
      intro count inTest rest hcount _
      simp only [Derivation.tokens, anyElement, List.length_append, List.length_cons,
        List.length_nil] at hcount
      have inner := elementTest_apply (ih count true rest (by omega))
      show operand (unary count true) inTest
        (anchor.token :: ((pathTokens path ++ anyElement ++ filter.tokens) ++ rest)) = _
      rw [operand_anchor, List.append_assoc, List.append_assoc]
      exact access_test _ _ _ path named inner

end DataFilter.Grammar
