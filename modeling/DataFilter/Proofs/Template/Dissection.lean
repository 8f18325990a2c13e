import DataFilter.Proofs.Template.Inversion

/-!
# What the first tokens tell of a derivation

A derivation is given, and the text that its tokens come from. What stands behind a part of the
text shows where the derivation of the part ends, and the first token shows which production it is:
`!` a negation, a parenthesis a condition in parentheses, anything else an operand, which may be the
left one of a comparison. Behind a part of a condition come more parts of it, or what closes it.
-/

namespace DataFilter

open Grammar

/-! ## What stands behind an operand -/

theorem Lexer.LexesTo.closeParen {count : Nat} {rest : List Char} {tokens : List Token}
    (h : LexesTo count (')' :: rest) tokens) :
    ∃ more, tokens = .closeParen :: more ∧ LexesTo count rest more :=
  h.mark (by decide)

theorem Lexer.LexesTo.openParen {count : Nat} {rest : List Char} {tokens : List Token}
    (h : LexesTo count ('(' :: rest) tokens) :
    ∃ more, tokens = .openParen :: more ∧ LexesTo count rest more :=
  h.mark (by decide)

theorem Lexer.LexesTo.closeBracket {count : Nat} {rest : List Char} {tokens : List Token}
    (h : LexesTo count (']' :: rest) tokens) :
    ∃ more, tokens = .closeBracket :: more ∧ LexesTo count rest more :=
  h.mark (by decide)

/-- The marks of a filter, up to its condition. -/
theorem Lexer.LexesTo.filterMarks {count : Nat} {rest : List Char} {tokens : List Token}
    (h : LexesTo count ('[' :: '?' :: '(' :: rest) tokens) :
    ∃ more, tokens = .openBracket :: .question :: .openParen :: more ∧ LexesTo count rest more := by
  obtain ⟨_, rfl, question⟩ := h.mark (show ('[', Token.openBracket) ∈ loneMarks by decide)
  obtain ⟨_, rfl, paren⟩ := question.mark (show ('?', Token.question) ∈ loneMarks by decide)
  obtain ⟨more, rfl, inside⟩ := paren.openParen
  exact ⟨more, rfl, inside⟩

/-- The marks of a collection test, up to its condition. -/
theorem Lexer.LexesTo.testMarks {count : Nat} {rest : List Char} {tokens : List Token}
    (h : LexesTo count ('[' :: '*' :: ']' :: '[' :: '?' :: '(' :: rest) tokens) :
    ∃ more, tokens = anyElement ++ .openBracket :: .question :: .openParen :: more ∧
      LexesTo count rest more := by
  obtain ⟨_, rfl, star⟩ := h.mark (show ('[', Token.openBracket) ∈ loneMarks by decide)
  obtain ⟨_, rfl, bracket⟩ := star.mark (show ('*', Token.star) ∈ loneMarks by decide)
  obtain ⟨_, rfl, filter⟩ := bracket.closeBracket
  obtain ⟨more, rfl, inside⟩ := filter.filterMarks
  exact ⟨more, rfl, inside⟩

/-- Behind an operand stands a closing parenthesis, or an operator with something behind it. -/
def FollowsOperand (rest : List Char) : Prop :=
  (∃ more, rest = ')' :: more) ∨
    ∃ (op : Operator) (c : Char) (more : List Char),
      rest = ' ' :: (op.symbol.toList ++ c :: more) ∧ (c = ' ' ∨ c = ')')

namespace FollowsOperand

variable {rest : List Char}

theorem delimits (h : FollowsOperand rest) : Delimits rest := by
  rcases h with ⟨more, rfl⟩ | ⟨op, c, more, rfl, -⟩
  · exact delimits_cons more (by decide)
  · exact delimits_cons _ (by decide)

/-- It does not prolong the operand. -/
theorem ends (h : FollowsOperand rest) {count : Nat} {tokens : List Token}
    (lexed : Lexer.LexesTo count rest tokens) : Ends 4 tokens := by
  rcases h with ⟨more, rfl⟩ | ⟨op, c, more, rfl, border⟩
  · obtain ⟨others, rfl, -⟩ := lexed.closeParen
    simp [strength]
  · cases tokens with
    | nil => exact ends_nil
    | cons token others =>
        rw [ends_cons]
        rcases lexed.symbol border with ⟨joint, -⟩ | ⟨weak, -⟩ | ⟨strong, -⟩
        · cases op <;> cases joint <;> decide
        · omega
        · omega

end FollowsOperand

/-! ## Taking derivations apart -/

/-- The tokens go on with another condition, or they close the parenthesis. -/
def Closes (tokens : List Token) : Prop :=
  ∃ token more, tokens = token :: more ∧ (token = .andAnd ∨ token = .orOr ∨ token = .closeParen)

theorem Closes.ends {tokens : List Token} (h : Closes tokens) : Ends 3 tokens := by
  obtain ⟨token, more, rfl, rfl | rfl | rfl⟩ := h <;> simp [strength]

section Rests

variable {ands : Derivation .andRest} {ors : Derivation .orRest} {last : Token}
  {more : List Token}

/-- What is joined to a part of a condition: another part by `&&`, another by `||`, or nothing. -/
theorem rests_cases {token : Token} {others : List Token}
    (h : ands.tokens ++ (ors.tokens ++ last :: more) = token :: others) :
    (token = .andAnd ∧ ∃ next rest, ands = .andMore next rest ∧
        others = next.tokens ++ (rest.tokens ++ (ors.tokens ++ last :: more))) ∨
      (token = .orOr ∧ ands = .andEnd ∧ ∃ next front rest, ors = .orMore (.and next front) rest ∧
        others = next.tokens ++ (front.tokens ++ (rest.tokens ++ last :: more))) ∨
      (token = last ∧ ands = .andEnd ∧ ors = .orEnd ∧ others = more) := by
  cases ands with
  | andMore next rest =>
      obtain ⟨rfl, rfl⟩ := List.cons.inj h
      refine .inl ⟨rfl, next, rest, rfl, ?_⟩
      exact List.append_assoc _ _ _
  | andEnd =>
      cases ors with
      | orMore first rest =>
          cases first with
          | and next front =>
              obtain ⟨rfl, rfl⟩ := List.cons.inj h
              refine .inr (.inl ⟨rfl, rfl, next, front, rest, rfl, ?_⟩)
              show ((next.tokens ++ front.tokens) ++ rest.tokens) ++ last :: more = _
              rw [List.append_assoc, List.append_assoc]
      | orEnd =>
          obtain ⟨rfl, rfl⟩ := List.cons.inj h
          exact .inr (.inr ⟨rfl, rfl, rfl, rfl⟩)

/-- Whatever comes behind a part of a condition in parentheses, the tokens go on or close them. -/
theorem closes_rests (ands : Derivation .andRest) (ors : Derivation .orRest) (more : List Token) :
    Closes (ands.tokens ++ (ors.tokens ++ .closeParen :: more)) := by
  obtain ⟨token, others, spelled⟩ : ∃ token others,
      ands.tokens ++ (ors.tokens ++ .closeParen :: more) = token :: others :=
    List.exists_cons_of_ne_nil (by simp)
  refine ⟨token, others, spelled, ?_⟩
  rcases rests_cases spelled with ⟨rfl, -⟩ | ⟨rfl, -⟩ | ⟨rfl, -⟩ <;> simp

/-- Nothing is joined if neither `&&` nor `||` comes behind. -/
theorem rests_eq_nil {token : Token} {others : List Token}
    (h : ands.tokens ++ (ors.tokens ++ last :: more) = token :: others)
    (neither : token ≠ .andAnd ∧ token ≠ .orOr) :
    ands = .andEnd ∧ ors = .orEnd ∧ last = token ∧ more = others := by
  rcases rests_cases h with ⟨rfl, -⟩ | ⟨rfl, -⟩ | ⟨rfl, rfl, rfl, rfl⟩
  · exact absurd rfl neither.1
  · exact absurd rfl neither.2
  · exact ⟨rfl, rfl, rfl, rfl⟩

end Rests

section Unary

variable {u : Derivation .unary} {more others : List Token}

theorem unary_of_bang (h : u.tokens ++ more = .bang :: others) :
    ∃ operand : Derivation .unary, u = .not operand ∧ operand.tokens ++ more = others := by
  cases u with
  | not operand => exact ⟨operand, rfl, (List.cons.inj h).2⟩
  | group condition => cases h
  | plain comparison =>
      obtain ⟨token, rest, spelled, no_bang, -⟩ := comparison_head comparison
      rw [Derivation.tokens, spelled] at h
      exact absurd (List.cons.inj h).1 no_bang

theorem unary_of_openParen (h : u.tokens ++ more = .openParen :: others) :
    ∃ condition : Derivation .or, u = .group condition ∧
      condition.tokens ++ .closeParen :: more = others := by
  cases u with
  | not operand => cases h
  | group condition =>
      refine ⟨condition, rfl, ?_⟩
      rw [← (List.cons.inj h).2]
      simp
  | plain comparison =>
      obtain ⟨token, rest, spelled, -, no_paren⟩ := comparison_head comparison
      rw [Derivation.tokens, spelled] at h
      exact absurd (List.cons.inj h).1 no_paren

/-- Else there is an operand, with a comparison behind it or without. -/
theorem unary_of_operand (inTest : Bool) {token : Token} (h : u.tokens ++ more = token :: others)
    (plain : token ≠ .bang ∧ token ≠ .openParen) (closes : Closes more) :
    ∃ (o : Derivation .operand) (tail : List Token), token :: others = o.tokens ++ tail ∧
      Ends 4 tail ∧ ((tail = more ∧ u.tree inTest = o.tree inTest) ∨
        ∃ (sign : Sign) (r : Derivation .operand), tail = sign.token :: (r.tokens ++ more) ∧
          u.tree inTest = sign.compare (o.tree inTest) r.isNull (r.tree inTest)) := by
  rw [← h]
  cases u with
  | not operand =>
      cases h
      exact absurd rfl plain.1
  | group condition =>
      cases h
      exact absurd rfl plain.2
  | plain comparison =>
      cases comparison with
      | single o => exact ⟨o, more, rfl, closes.ends.mono (by decide), .inl ⟨rfl, rfl⟩⟩
      | pair o sign r =>
          refine ⟨o, sign.token :: (r.tokens ++ more), by simp, by simp, .inr ⟨sign, r, rfl, rfl⟩⟩

end Unary

/-- A filter whose condition begins with a parenthesis: what stands between it and the closing one,
and what comes behind. -/
theorem filter_of_openParen {filter : Derivation .filter} {more others : List Token}
    (h : filter.tokens ++ more = .openBracket :: .question :: .openParen :: others) :
    ∃ (d : Derivation .or) (ands : Derivation .andRest) (ors : Derivation .orRest),
      filter = .bracketed (.or (.and (.group d) ands) ors) ∧
      others =
        d.tokens ++ .closeParen :: (ands.tokens ++ (ors.tokens ++ .closeBracket :: more)) := by
  cases filter with
  | bracketed condition =>
      cases condition with
      | or first ors =>
          cases first with
          | and u ands =>
              have spelled : u.tokens ++ (ands.tokens ++ (ors.tokens ++ .closeBracket :: more)) =
                  .openParen :: others := by
                simpa using h
              obtain ⟨d, rfl, inside⟩ := unary_of_openParen spelled
              exact ⟨d, ands, ors, rfl, inside.symm⟩

end DataFilter
