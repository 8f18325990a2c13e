import DataFilter.Proofs.Outcome
import DataFilter.Proofs.Template.Dissection
import DataFilter.Proofs.Template.Opening

/-!
# What is read back from the text of a tree

The template that a tree is written as need not be one that the parser accepts. Where it is, the
parser reads `Node.reading` of the tree, so it gives the tree back just if the tree is unambiguous.

The proof goes along the construction of the tree, with the text known and the derivation given.
`ReadsInParens` tells what a derivation means that spells the text of a tree between parentheses,
and `ReadsAs` the same for the text of an operand. There the derivation may go beyond the operand,
since a comparison takes the operand for its left one: then what it means is the comparison, put
under the negations that the operand begins with.
-/

namespace DataFilter

open Grammar

/-! ## What derivations of a text mean -/

namespace Node

/-- What is derived from the text of the tree in parentheses means its reading. -/
def ReadsInParens (inTest : Bool) (tree : Node) : Prop :=
  ∀ (first : Nat) (rest : List Char) (more : List Token) (d : Derivation .or),
    tree.NumberedFrom first →
    Lexer.LexesTo first (tree.render.toList ++ ')' :: rest) (d.tokens ++ .closeParen :: more) →
    d.tree inTest = tree.reading ∧ Lexer.LexesTo (first + tree.positions.length) rest more

/-- What is derived from the text of the tree as an operand means its reading, or a comparison that
its reading, without the negations in front, is the left operand of. -/
def ReadsAs (inTest : Bool) (tree : Node) : Prop :=
  ∀ (first : Nat) (rest : List Char) (more : List Token) (u : Derivation .unary),
    tree.NumberedFrom first → FollowsOperand rest → Closes more →
    Lexer.LexesTo first (tree.operandText ++ rest) (u.tokens ++ more) →
    (u.tree inTest = tree.reading ∧ Lexer.LexesTo (first + tree.positions.length) rest more) ∨
      ∃ (sign : Sign) (r : Derivation .operand),
        Lexer.LexesTo (first + tree.positions.length) rest (sign.token :: (r.tokens ++ more)) ∧
          u.tree inTest =
            tree.reading.underNots fun l => sign.compare l r.isNull (r.tree inTest)

/-- What is derived as an operand from the text of the tree means its reading. -/
def ReadsAsOperand (inTest : Bool) (tree : Node) : Prop :=
  ∀ (first : Nat) (rest : List Char) (tail : List Token) (o : Derivation .operand),
    tree.NumberedFrom first → FollowsOperand rest → Ends 4 tail →
    Lexer.LexesTo first (tree.render.toList ++ rest) (o.tokens ++ tail) →
    o.tree inTest = tree.reading ∧ Lexer.LexesTo (first + tree.positions.length) rest tail

section Steps

variable {inTest : Bool} {tree : Node}

/-- An operand in front of a closing parenthesis is all that there is. -/
theorem ReadsAs.last (h : ReadsAs inTest tree) {first : Nat} {rest : List Char}
    {more : List Token} {u : Derivation .unary} (numbered : tree.NumberedFrom first)
    (closes : Closes more)
    (lexed : Lexer.LexesTo first (tree.operandText ++ ')' :: rest) (u.tokens ++ more)) :
    u.tree inTest = tree.reading ∧
      ∃ others, more = .closeParen :: others ∧
        Lexer.LexesTo (first + tree.positions.length) rest others := by
  rcases h first (')' :: rest) more u numbered (.inl ⟨rest, rfl⟩) closes lexed with
    ⟨means, behind⟩ | ⟨sign, r, behind, -⟩
  · exact ⟨means, behind.closeParen⟩
  · obtain ⟨others, spelled, -⟩ := behind.closeParen
    cases sign <;> cases spelled

/-- A tree without parentheses of its own is the only condition in those around it. -/
theorem readsInParens_of_plain (plain : tree.needsGrouping = false) (h : ReadsAs inTest tree) :
    ReadsInParens inTest tree := by
  intro first rest more d numbered lexed
  cases d with
  | or front ors =>
      cases front with
      | and u ands =>
          rw [← operandText_of_plain plain, Derivation.tokens, Derivation.tokens, List.append_assoc,
            List.append_assoc] at lexed
          obtain ⟨means, others, rests, behind⟩ := h.last numbered (closes_rests _ _ _) lexed
          obtain ⟨rfl, rfl, -, rfl⟩ := rests_eq_nil rests (by simp)
          exact ⟨means, behind⟩

/-- Any other tree has parentheses around it where it is an operand. -/
theorem readsAs_of_grouped (needed : tree.needsGrouping = true) (h : ReadsInParens inTest tree) :
    ReadsAs inTest tree := by
  intro first rest more u numbered _ _ lexed
  rw [operandText_of_grouped needed, List.cons_append, List.append_assoc] at lexed
  obtain ⟨others, opened, inside⟩ := lexed.openParen
  obtain ⟨d, rfl, rfl⟩ := unary_of_openParen opened
  exact .inl (h first rest more d numbered inside)

/-- An operand that begins like one is read as one. -/
theorem readsAs_of_operand (plain : tree.needsGrouping = false)
    (positive : tree.reading.isNegation = false)
    (starts : ∀ first rest tokens, tree.NumberedFrom first → FollowsOperand rest →
      Lexer.LexesTo first (tree.render.toList ++ rest) tokens →
      ∃ token others, tokens = token :: others ∧ token ≠ .bang ∧ token ≠ .openParen)
    (h : ReadsAsOperand inTest tree) : ReadsAs inTest tree := by
  intro first rest more u numbered follows closes lexed
  rw [operandText_of_plain plain] at lexed
  obtain ⟨token, others, spelled, other⟩ := starts first rest _ numbered follows lexed
  obtain ⟨o, tail, split, ends, outcome⟩ := unary_of_operand inTest spelled other closes
  rw [spelled, split] at lexed
  obtain ⟨means, behind⟩ := h first rest tail o numbered follows ends lexed
  rcases outcome with ⟨rfl, whole⟩ | ⟨sign, r, rfl, whole⟩
  · exact .inl ⟨whole.trans means, behind⟩
  · refine .inr ⟨sign, r, behind, ?_⟩
    rw [whole, means, underNots_of_not _ positive]

end Steps

/-! ## Operands -/

section Operands

variable {inTest : Bool} {tree : Node}

/-- The text of an operand that means the reading is derived in no other way. -/
theorem readsAs_of_spelled (plain : tree.needsGrouping = false)
    (positive : tree.reading.isNegation = false)
    (h : ∀ first, tree.NumberedFrom first → ∃ d : Derivation .operand,
      d.tree inTest = tree.reading ∧
        Written first tree.render.toList tree.positions.length d.tokens) : ReadsAs inTest tree := by
  refine readsAs_of_operand plain positive ?_ ?_
  · intro first rest tokens numbered follows lexed
    obtain ⟨d, -, written⟩ := h first numbered
    obtain ⟨others, rfl, -⟩ := lexed.after (written.reads rest follows.delimits)
    obtain ⟨token, more, spelled, other⟩ := operand_head d
    exact ⟨token, more ++ others, by rw [spelled, List.cons_append], other⟩
  · intro first rest tail o numbered follows ends lexed
    obtain ⟨d, means, written⟩ := h first numbered
    obtain ⟨others, spelled, behind⟩ := lexed.after (written.reads rest follows.delimits)
    obtain ⟨rfl, rfl⟩ := o.isOnly d tail others spelled ends (follows.ends behind)
    rw [written.count] at behind
    exact ⟨means, behind⟩

theorem readsAs_atom {a : Atom} (spelled : a.HasSpelling) : ReadsAs inTest a.node := by
  refine readsAs_of_spelled ?_ ?_ ?_
  · cases a <;> rfl
  · cases a <;> rfl
  · intro first numbered
    refine ⟨.atom a, ?_, written_atom spelled numbered⟩
    cases a <;> rfl

theorem readsAs_field {scope : Node} {name : String} (path : IsScopePath inTest scope)
    (identifier : IsIdentifier name) : ReadsAs inTest (.field scope name) :=
  readsAs_of_spelled rfl rfl (operandSpelled_field path identifier)

/-- A root by itself is no operand. -/
theorem readsAs_root (anchor : Anchor) (plain : tree.needsGrouping = false)
    (positive : tree.reading.isNegation = false)
    (text : tree.render.toList = [anchor.symbol]) : ReadsAs inTest tree := by
  have written (first : Nat) : Written first tree.render.toList 0 [anchor.token] := by
    rw [text]
    show Written first (anchor.symbol :: pathText []) 0 (anchor.token :: pathTokens [])
    exact written_anchor anchor (by simp) first
  refine readsAs_of_operand plain positive ?_ ?_
  · intro first rest tokens numbered follows lexed
    obtain ⟨others, rfl, -⟩ := lexed.after ((written first).reads rest follows.delimits)
    refine ⟨anchor.token, others, rfl, ?_⟩
    cases anchor <;> simp [Anchor.token]
  · intro first rest tail o numbered follows ends lexed
    obtain ⟨others, spelled, behind⟩ := lexed.after ((written first).reads rest follows.delimits)
    have ends' := follows.ends behind
    -- an operand that begins with a root goes on with a point
    cases o with
    | atom a => cases a <;> cases anchor <;> cases spelled
    | field anchor' path named =>
        obtain ⟨name, names, rfl⟩ := List.exists_cons_of_ne_nil named
        obtain rfl : _ = others := (List.cons.inj spelled).2
        simp [pathTokens, strength] at ends'
    | test anchor' path named filter =>
        obtain ⟨name, names, rfl⟩ := List.exists_cons_of_ne_nil named
        obtain rfl : _ = others := (List.cons.inj spelled).2
        simp [pathTokens, strength] at ends'

/-- A scope is read as a reference, if it is read. -/
theorem readsAs_scope {scope : Node} (path : IsScopePath inTest scope) : ReadsAs inTest scope := by
  cases path with
  | document => exact readsAs_root .document rfl rfl rfl
  | element inside => exact readsAs_root .here rfl rfl rfl
  | @object parent name path identifier =>
      refine readsAs_of_spelled rfl rfl ?_
      intro first numbered
      exact operandSpelled_field path identifier first numbered

/-- A collection test is read as one, and its condition is what the predicate means. -/
theorem readsAs_collection {parent predicate : Node} (path : IsScopePath inTest parent)
    (h : ReadsInParens true predicate) : ReadsAs inTest (.collection parent predicate) := by
  obtain ⟨anchor, names, identifiers, hparent, htext⟩ := path.exists_path
  have text (rest : List Char) : (Node.collection parent predicate).render.toList ++ rest =
      (anchor.symbol :: pathText names) ++ '[' :: '*' :: ']' :: '[' :: '?' :: '(' ::
        (predicate.render.toList ++ ')' :: ']' :: rest) := by
    simp [render, htext]
  have positions : (Node.collection parent predicate).positions = predicate.positions := by
    show parent.positions ++ predicate.positions = _
    rw [path.positions, List.nil_append]
  have reads (first : Nat) (rest : List Char) : Lexer.Reads first (anchor.symbol :: pathText names)
      (anchor.token :: pathTokens names) ('[' :: rest) :=
    (written_anchor anchor identifiers first).reads _ (delimits_cons rest (by decide))
  refine readsAs_of_operand rfl rfl ?_ ?_
  · intro first rest tokens numbered follows lexed
    rw [text] at lexed
    obtain ⟨others, rfl, -⟩ := lexed.after (reads first _)
    refine ⟨anchor.token, _, rfl, ?_⟩
    cases anchor <;> simp [Anchor.token]
  · intro first rest tail o numbered follows ends lexed
    rw [NumberedFrom, positions] at numbered
    rw [text] at lexed
    obtain ⟨others, spelled, tested⟩ := lexed.after (reads first _)
    rw [(written_anchor anchor identifiers first).count] at tested
    obtain ⟨inside, rfl, condition⟩ := tested.testMarks
    cases o with
    | atom a => cases a <;> cases anchor <;> cases spelled
    | field anchor' path' named =>
        -- a field ends with its last name, and no bracket follows it
        obtain ⟨-, same⟩ := List.cons.inj spelled
        obtain ⟨-, rfl⟩ := pathTokens_unique same (no_dot_of_ends ends) (ends_anyElement _)
        simp [anyElement, strength] at ends
    | test anchor' path' named filter =>
        simp only [Derivation.tokens, List.cons_append, List.append_assoc, List.cons.injEq]
          at spelled
        obtain ⟨sameRoot, same⟩ := spelled
        obtain rfl := Anchor.token_injective sameRoot
        obtain ⟨rfl, brackets⟩ := pathTokens_unique same (ends_anyElement _) (ends_anyElement _)
        obtain ⟨d, ands, ors, rfl, rfl⟩ := filter_of_openParen (List.append_cancel_left brackets)
        obtain ⟨means, closing⟩ := h first (']' :: rest) _ d numbered condition
        obtain ⟨more, rests, behind⟩ := closing.closeBracket
        obtain ⟨rfl, rfl, -, rfl⟩ := rests_eq_nil rests (by simp)
        rw [positions]
        refine ⟨?_, behind⟩
        show Node.collection _ (d.tree true) = .collection parent predicate.reading
        rw [means, hparent]

end Operands

/-! ## Operators in front -/

section Before

variable {inTest : Bool} {operand : Node}

/-- A minus sign in front of a number without a sign is part of the number. -/
theorem readsAs_opposite {op : Operator} {v : Value} {a : Atom}
    (minus : op = .negative ∨ op = .subtract) (opposite : v.opposite?.map literal = some a.node)
    (written : ∀ first, Written first ('-' :: (literal v).operandText) 0 [a.token]) :
    ReadsAs inTest (.before op (.literal v)) := by
  have means : (before op (.literal v)).reading = a.node := by
    have number : signed? op (.literal v) = some a.node := by
      rcases minus with rfl | rfl <;> exact opposite
    rw [before, reading, number, Option.getD_some]
  refine readsAs_of_spelled rfl ?_ ?_
  · rw [means]
    cases a <;> rfl
  · intro first numbered
    refine ⟨.atom a, means.symm, ?_⟩
    have text : (before op (.literal v)).render.toList = '-' :: (literal v).operandText := by
      rw [← operandText_of_plain rfl, operandText_before]
      rcases minus with rfl | rfl <;> rfl
    rw [text]
    exact written first

/-- A percent sign in front of the literal `false` is a placeholder with a name behind it, which is
no part of a condition. -/
theorem not_lexesTo_percent {first : Nat} {rest : List Char} {more : List Token}
    {u : Derivation .unary} (follows : FollowsOperand rest) (closes : Closes more)
    (lexed : Lexer.LexesTo first ('%' :: 'f' :: (['a', 'l', 's', 'e'] ++ rest))
      (u.tokens ++ more)) : False := by
  have placeholder : Lexer.Reads first ['%', 'f'] [.placeholder ⟨.position first, .float⟩]
      (['a', 'l', 's', 'e'] ++ rest) := by
    have text := toList_render_position first .float
    rw [PlaceholderKind.letter] at text
    rw [← text]
    exact Lexer.reads_position .float _
  obtain ⟨others, spelled, word⟩ := lexed.after placeholder
  obtain ⟨names, rfl, -⟩ := word.after (Lexer.reads_word (by decide) follows.delimits.word)
  obtain ⟨o, tail, split, -, outcome⟩ := unary_of_operand false spelled (by simp) closes
  -- the placeholder is an operand, and the name behind it joins nothing to it
  have name : tail = .identifier "alse" :: names := by
    cases o with
    | atom a => exact (List.cons.inj split).2.symm
    | field anchor path named => cases anchor <;> cases split
    | test anchor path named filter => cases anchor <;> cases split
  rcases outcome with ⟨same, -⟩ | ⟨sign, r, same, -⟩
  · obtain ⟨token, others, rfl, joins⟩ := closes
    rw [name] at same
    obtain rfl : Token.identifier "alse" = token := (List.cons.inj same).1
    rcases joins with joins | joins | joins <;> cases joins
  · rw [name] at same
    cases sign <;> cases (List.cons.inj same).1

/-- A negation is read as one. Of the other operators none is read as what it is. -/
theorem readsAs_before (op : Operator) (opens : Opens operand operand.operandText)
    (h : ReadsAs inTest operand) : ReadsAs inTest (.before op operand) := by
  intro first rest more u numbered follows closes lexed
  obtain ⟨token, tokens, spelled, starts⟩ := unary_begins u
  have front := lexed
  rw [operandText_before, List.append_assoc, spelled, List.cons_append] at front
  rcases front.leading starts with ⟨rfl, rfl, behind⟩ | ⟨minus, digit⟩ | ⟨rfl, found⟩
  · have negated : u.tokens ++ more = .bang :: (tokens ++ more) := by
      rw [spelled, List.cons_append]
    obtain ⟨d, rfl, same⟩ := unary_of_bang negated
    rw [← same] at behind
    rcases h first rest more d numbered follows closes behind with
      ⟨means, others⟩ | ⟨sign, r, others, means⟩
    · exact .inl ⟨congrArg Node.not means, others⟩
    · exact .inr ⟨sign, r, others, congrArg Node.not means⟩
  · obtain ⟨v, a, rfl, opposite, written⟩ := opens.of_digit rest digit
    exact readsAs_opposite minus opposite written first rest more u numbered follows closes lexed
  · have text := opens.of_placeholder rest found
    rw [operandText_before, text] at lexed
    exact (not_lexesTo_percent follows closes lexed).elim

end Before

/-! ## Operators between operands and behind them -/

theorem isNull_eq_isNullLiteral (inTest : Bool) (d : Derivation .operand) :
    d.isNull = (d.tree inTest).isNullLiteral := by
  cases d with
  | atom a => cases a <;> rfl
  | field => rfl
  | test => rfl

section Joined

variable {inTest : Bool} {left right : Node}

/-- The condition joins `left` by the operator to what is derived from the text behind it, if
nothing comes behind that. -/
def JoinsTo (inTest : Bool) (count : Nat) (text : List Char) (op : Operator) (left : Node)
    (d : Derivation .or) (more : List Token) : Prop :=
  ∃ (u : Derivation .unary) (others : List Token),
    Lexer.LexesTo count text (u.tokens ++ others) ∧ Closes others ∧
      ∀ last, others = .closeParen :: last →
        last = more ∧ d.tree inTest = left.joined op (u.tree inTest) op.associativity

section Behind

variable {count : Nat} {op : Operator} {c : Char} {text : List Char} {u : Derivation .unary}
  {ands : Derivation .andRest} {ors : Derivation .orRest} {more : List Token}

/-- Behind a condition the operator is `&&` or `||`, and what comes next is another condition. -/
theorem joinsTo_of_condition (border : c = ' ' ∨ c = ')')
    (behind : Lexer.LexesTo count (' ' :: (op.symbol.toList ++ c :: text))
      (ands.tokens ++ (ors.tokens ++ .closeParen :: more))) :
    JoinsTo inTest count (c :: text) op (u.tree inTest) (.or (.and u ands) ors) more := by
  obtain ⟨token, others, spelled, goes_on⟩ := closes_rests ands ors more
  rw [spelled] at behind
  rcases behind.symbol border with ⟨joint, inside⟩ | stuck
  · rcases rests_cases spelled with ⟨rfl, next, rest, rfl, rfl⟩ |
      ⟨rfl, rfl, next, front, rest, rfl, rfl⟩ | ⟨rfl, -⟩
    · have same : op = .and := by
        cases op <;> cases joint
        rfl
      refine ⟨next, _, inside, closes_rests rest ors more, ?_⟩
      intro last ending
      obtain ⟨rfl, rfl, -, rfl⟩ := rests_eq_nil ending (by simp)
      rw [same]
      exact ⟨rfl, rfl⟩
    · have same : op = .or := by
        cases op <;> cases joint
        rfl
      refine ⟨next, _, inside, closes_rests front rest more, ?_⟩
      intro last ending
      obtain ⟨rfl, rfl, -, rfl⟩ := rests_eq_nil ending (by simp)
      rw [same]
      exact ⟨rfl, rfl⟩
    · cases op <;> cases joint
  · rcases goes_on with rfl | rfl | rfl <;> simp [IsStuck, strength] at stuck

/-- Behind the left side of a comparison the operator is its sign, and what comes next is its right
side. -/
theorem joinsTo_of_comparison {sign : Sign} {r : Derivation .operand} (border : c = ' ' ∨ c = ')')
    (behind : Lexer.LexesTo count (' ' :: (op.symbol.toList ++ c :: text))
      (sign.token :: (r.tokens ++ (ands.tokens ++ (ors.tokens ++ .closeParen :: more)))))
    (means : u.tree inTest = left.underNots fun l => sign.compare l r.isNull (r.tree inTest)) :
    JoinsTo inTest count (c :: text) op left (.or (.and u ands) ors) more := by
  rcases behind.symbol border with ⟨joint, inside⟩ | stuck
  · have same : op = sign.operator := by cases op <;> cases sign <;> cases joint <;> rfl
    have compares : Sign.ofOperator? op = some sign := by
      rw [same]
      cases sign <;> rfl
    refine ⟨.plain (.single r), _, inside, closes_rests ands ors more, ?_⟩
    intro last ending
    obtain ⟨rfl, rfl, -, rfl⟩ := rests_eq_nil ending (by simp)
    refine ⟨rfl, ?_⟩
    show u.tree inTest = left.joined op (r.tree inTest) _
    rw [means, isNull_eq_isNullLiteral inTest r, joined, compares]
  · -- behind the sign stands an operand, not another sign
    obtain ⟨token, tokens, spelled, starts⟩ := operand_begins r
    rw [spelled] at stuck
    rcases stuck with ⟨weak, -⟩ | ⟨-, again⟩
    · rw [strength_sign] at weak
      cases weak
    · rw [again token rfl] at starts
      cases sign <;> cases starts

end Behind

/-- What goes on behind its first operand goes on with the operator that stands there. -/
theorem ReadsAs.joinsTo (h : ReadsAs inTest left) {first : Nat} (numbered : left.NumberedFrom first)
    {op : Operator} {c : Char} {text : List Char} (border : c = ' ' ∨ c = ')')
    {d : Derivation .or} {more : List Token}
    (lexed : Lexer.LexesTo first (left.operandText ++ ' ' :: (op.symbol.toList ++ c :: text))
      (d.tokens ++ .closeParen :: more)) :
    JoinsTo inTest (first + left.positions.length) (c :: text) op left.reading d more := by
  cases d with
  | or front ors =>
      cases front with
      | and u ands =>
          rw [Derivation.tokens, Derivation.tokens, List.append_assoc, List.append_assoc] at lexed
          rcases h first _ _ u numbered (.inr ⟨op, c, text, rfl, border⟩)
              (closes_rests ands ors more) lexed with
            ⟨means, behind⟩ | ⟨sign, r, behind, means⟩
          · rw [← means]
            exact joinsTo_of_condition border behind
          · exact joinsTo_of_comparison border behind means

/-- Both sides are what they are read as, and the operator between them joins them. -/
theorem readsInParens_between (op : Operator) (hleft : ReadsAs inTest left)
    (hright : ReadsAs inTest right) : ReadsInParens inTest (.between left op right) := by
  intro first rest more d numbered lexed
  obtain ⟨numberedLeft, numberedRight⟩ := range'_append_iff numbered
  rw [toList_render_between, List.append_assoc, List.cons_append, List.append_assoc,
    List.cons_append] at lexed
  obtain ⟨u, others, inside, closes, ending⟩ := hleft.joinsTo numberedLeft (.inl rfl) lexed
  obtain ⟨means, last, rfl, behind⟩ := hright.last numberedRight closes (inside.blank (by decide))
  obtain ⟨rfl, whole⟩ := ending last rfl
  refine ⟨?_, ?_⟩
  · rw [whole, means]
    rfl
  · rw [between, positions, List.length_append, ← Nat.add_assoc]
    exact behind

/-- What the construction of a tree tells of it is its text, its reading and its placeholders. -/
theorem ReadsInParens.congr {tree other : Node} (h : ReadsInParens inTest tree)
    (text : other.render = tree.render) (means : other.reading = tree.reading)
    (positions : other.positions = tree.positions) : ReadsInParens inTest other := by
  intro first rest more d numbered lexed
  rw [text] at lexed
  rw [NumberedFrom, positions] at numbered
  rw [means, positions]
  exact h first rest more d numbered lexed

/-- Null tests are read as the comparisons that they are written as. No other operator behind an
operand is read. -/
theorem readsInParens_after (op : Operator) (h : ReadsAs inTest left) :
    ReadsInParens inTest (.after left op) := by
  have null : ReadsAs inTest (.literal .null) := readsAs_atom (a := .null) trivial
  have positions (other : Operator) :
      (after left op).positions = (between left other (.literal .null)).positions :=
    (List.append_nil _).symm
  by_cases test : op = .isNull ∨ op = .isNotNull
  · rcases test with rfl | rfl
    · refine (readsInParens_between .equal h null).congr ?_ rfl (positions .equal)
      rw [← String.toList_inj, toList_render_between, toList_render_after]
      rfl
    · refine (readsInParens_between .notEqual h null).congr ?_ rfl (positions .notEqual)
      rw [← String.toList_inj, toList_render_between, toList_render_after]
      rfl
  · intro first rest more d numbered lexed
    have symbol : (afterSymbol op).toList = ' ' :: op.symbol.toList := by
      cases op <;> first | rfl | simp at test
    rw [toList_render_after, symbol, List.append_assoc, List.cons_append] at lexed
    obtain ⟨u, others, inside, -, -⟩ := h.joinsTo numbered (.inr rfl) lexed
    obtain ⟨tokens, spelled, -⟩ := inside.closeParen
    obtain ⟨token, others', begin, starts⟩ := unary_begins u
    rw [begin] at spelled
    obtain rfl : token = .closeParen := (List.cons.inj spelled).1
    cases starts

end Joined

/-! ## Trees -/

/-- Whatever a program builds, what its text is read as is its reading. -/
theorem HasSpelling.reads {inTest : Bool} {tree : Node} (h : tree.HasSpelling inTest) :
    ReadsInParens inTest tree ∧ ReadsAs inTest tree := by
  have operand {inTest : Bool} {tree : Node} (plain : tree.needsGrouping = false)
      (reads : ReadsAs inTest tree) : ReadsInParens inTest tree ∧ ReadsAs inTest tree :=
    ⟨readsInParens_of_plain plain reads, reads⟩
  have condition {inTest : Bool} {tree : Node} (needed : tree.needsGrouping = true)
      (reads : ReadsInParens inTest tree) : ReadsInParens inTest tree ∧ ReadsAs inTest tree :=
    ⟨reads, readsAs_of_grouped needed reads⟩
  induction h with
  | atom a spelled => exact operand (by cases a <;> rfl) (readsAs_atom spelled)
  | scope path => exact operand (by cases path <;> rfl) (readsAs_scope path)
  | field path identifier => exact operand rfl (readsAs_field path identifier)
  | collection path _ ih => exact operand rfl (readsAs_collection path ih.1)
  | before op h ih => exact operand rfl (readsAs_before op h.opens ih.2)
  | between _ op _ ihl ihr => exact condition rfl (readsInParens_between op ihl.2 ihr.2)
  | after _ op ih => exact condition rfl (readsInParens_after op ih.2)

/-- If the template of a tree is read at all, then as its reading. -/
theorem HasSpelling.eq_reading_of_parse {tree : Node} (spelled : tree.HasSpelling false)
    (numbered : tree.NumberedFrom 0) {found : Node}
    (parsed : Node.parse (Specification.ofTree tree).template = .ok found) :
    found = tree.reading := by
  obtain ⟨lexemes, tokenized, -⟩ := bind_eq_ok parsed
  obtain ⟨d, spells, rfl⟩ := (parse_eq_ok_iff tokenized).mp parsed
  obtain ⟨tokens, split, lexed⟩ := lexesTo_of_tokenize tokenized
  obtain rfl : d.tokens = tokens := List.append_cancel_right (spells.symm.trans split)
  have text : (Specification.ofTree tree).template.toList =
      '$' :: '[' :: '?' :: '(' :: (tree.render.toList ++ [')', ']']) := by
    simp [Specification.ofTree]
  rw [text] at lexed
  obtain ⟨_, root, filtered⟩ := lexed.mark (show ('$', Token.dollar) ∈ Lexer.loneMarks by decide)
  obtain ⟨others, rfl, condition⟩ := filtered.filterMarks
  cases d with
  | elements path named filter =>
      obtain ⟨name, names, rfl⟩ := List.exists_cons_of_ne_nil named
      cases root
  | whole filter =>
      have bracketed : filter.tokens ++ [] = .openBracket :: .question :: .openParen :: others := by
        rw [List.append_nil]
        exact (List.cons.inj root).2
      obtain ⟨d, ands, ors, rfl, rfl⟩ := filter_of_openParen bracketed
      obtain ⟨means, closing⟩ := spelled.reads.1 0 [']'] _ d numbered condition
      obtain ⟨more, rests, -⟩ := closing.closeBracket
      obtain ⟨rfl, rfl, -, -⟩ := rests_eq_nil rests (by simp)
      exact means

end Node

/-- The template of a tree is read as the reading of the tree, if it is read at all. So a tree is
read back as itself just if nothing in its text means another tree. -/
theorem Specification.tree_of_parse_ofTree {tree : Node} (spelled : tree.HasSpelling false)
    (numbered : tree.NumberedFrom 0) {spec : Specification}
    (parsed : parse (ofTree tree).template = .ok spec) :
    spec.tree = tree.reading ∧ (spec.tree = tree ↔ tree.isUnambiguous = true) := by
  obtain ⟨found, read, ⟨⟩⟩ := bind_eq_ok parsed
  have means : found = tree.reading := spelled.eq_reading_of_parse numbered read
  refine ⟨means, ?_⟩
  show found = tree ↔ _
  rw [means]
  exact spelled.reading_eq_iff

theorem hasSpelling_rootField {name : String} (h : name = "a" ∨ name = "b") :
    (Node.field .globalScope name).HasSpelling false := by
  refine .field .document ?_
  rcases h with rfl | rfl <;> exact ⟨by decide, by decide, by decide, by decide⟩

/-- Minus five, with the minus sign as an operator, compared with a field, and a null test of a
negation. -/
def signedTree : Node :=
  .between (.between (.before .negative (.literal (.integer 5))) .equal (.field .globalScope "a"))
    .and (.isNull (.not (.field .globalScope "b")))

theorem hasSpelling_signedTree : signedTree.HasSpelling false := by
  have five : (Node.literal (.integer 5)).HasSpelling false := .atom (.integer 5) trivial
  have comparison := (five.before .negative).between .equal (hasSpelling_rootField (.inl rfl))
  have nullTest := ((hasSpelling_rootField (.inr rfl)).before .not).after .isNull
  exact comparison.between .and nullTest

/-- A field of the document. -/
def rootField (name : String) : Derivation .operand :=
  .field .document [name] (List.cons_ne_nil name [])

/-- What the text of the tree is derived as: the number is negative, and what is negated is the null
test. -/
def signedDerivation : Derivation .template :=
  let comparison : Derivation .comparison :=
    .pair (.atom (.integer ⟨-5, by decide, by decide⟩)) .equal (rootField "a")
  let nullTest : Derivation .comparison :=
    .pair (rootField "b") .equal (.atom .null)
  let joined : Derivation .or := .or (.and (.group (.or (.and (.plain comparison) .andEnd) .orEnd))
    (.andMore (.group (.or (.and (.not (.plain nullTest)) .andEnd) .orEnd)) .andEnd)) .orEnd
  .whole (.bracketed (.or (.and (.group joined) .andEnd) .orEnd))

theorem tree_of_parse_signedTree :
    ∃ spec, Specification.parse (Specification.ofTree signedTree).template = .ok spec ∧
      spec.template = "$[?((-5 == $.a) && (!$.b == null))]" ∧
      spec.tree = signedTree.reading ∧ spec.tree ≠ signedTree := by
  have text : (Specification.ofTree signedTree).template =
      "$[?((-5 == $.a) && (!$.b == null))]" := by
    decide +kernel
  have tokenized : tokenize "$[?((-5 == $.a) && (!$.b == null))]" = .ok _ := rfl
  have parsed : Specification.parse (Specification.ofTree signedTree).template =
      .ok ⟨"$[?((-5 == $.a) && (!$.b == null))]", signedDerivation.tree false⟩ := by
    rw [text, Specification.parse, (parse_eq_ok_iff tokenized).mpr ⟨signedDerivation, rfl, rfl⟩]
    rfl
  obtain ⟨means, same_iff⟩ := Specification.tree_of_parse_ofTree hasSpelling_signedTree rfl parsed
  refine ⟨_, parsed, rfl, means, ?_⟩
  intro same
  exact absurd (same_iff.mp same) (by decide)

/-- A negation that is compared with a field. -/
def negatedOperand : Node :=
  .between (.not (.field .globalScope "a")) .equal (.field .globalScope "b")

/-- What its text is derived as: a negated comparison. -/
def negatedOperandDerivation : Derivation .template :=
  let comparison : Derivation .comparison :=
    .pair (rootField "a") .equal (rootField "b")
  .whole (.bracketed (.or (.and
    (.group (.or (.and (.not (.plain comparison)) .andEnd) .orEnd)) .andEnd) .orEnd))

/-- No parentheses are written around the negation, so the template negates the comparison. -/
theorem negatedOperand_is_misread :
    negatedOperand.HasSpelling false ∧ negatedOperand.NumberedFrom 0 ∧
      ∃ spec, Specification.parse (Specification.ofTree negatedOperand).template = .ok spec ∧
        spec.tree ≠ negatedOperand := by
  have text : (Specification.ofTree negatedOperand).template = "$[?(!$.a == $.b)]" := by
    decide +kernel
  have tokenized : tokenize "$[?(!$.a == $.b)]" = .ok _ := rfl
  have parsed : Specification.parse (Specification.ofTree negatedOperand).template =
      .ok ⟨"$[?(!$.a == $.b)]", negatedOperandDerivation.tree false⟩ := by
    rw [text, Specification.parse,
      (parse_eq_ok_iff tokenized).mpr ⟨negatedOperandDerivation, rfl, rfl⟩]
    rfl
  refine ⟨?_, rfl, _, parsed, ?_⟩
  · have negation := (hasSpelling_rootField (.inl rfl)).before .not
    exact negation.between .equal (hasSpelling_rootField (.inr rfl))
  · intro same
    cases same

end DataFilter
