import DataFilter.Proofs.Template.Acceptance
import DataFilter.Proofs.Template.Expressible
import DataFilter.Proofs.Template.Spelling
import DataFilter.Specification

/-!
# Printing and parsing are inverse

The text of an expressible tree is lexed as the tokens of a derivation that means the tree, so the
parser gives the tree back. The proof goes along the construction of the tree. What it carries is
`Written`: the text is read as these tokens wherever neither a name nor a number is prolonged by what
follows. An operator between operands stands in parentheses where it is an operand, so a condition
has two forms, a derivation as it stands and one that can be negated or joined.
-/

namespace DataFilter

open Grammar

/-! ## Text that is read as tokens -/

/-- What does not prolong a name or a number. -/
def Delimits (rest : List Char) : Prop := ∀ c ∈ rest.head?, isNameChar c = false ∧ c ≠ '.'

theorem delimits_cons {c : Char} (rest : List Char) (h : isNameChar c = false ∧ c ≠ '.') :
    Delimits (c :: rest) := by
  intro d hd
  obtain rfl : c = d := Option.some.inj hd
  exact h

theorem isDigit_of_isNameChar {c : Char} (h : isNameChar c = false) : c.isDigit = false := by
  simp only [isNameChar, Char.isAlphanum, Bool.or_eq_false_iff] at h
  exact h.1.2

theorem Delimits.word {rest : List Char} (h : Delimits rest) :
    ∀ c ∈ rest.head?, isNameChar c = false :=
  fun c hc => (h c hc).1

theorem Delimits.number {rest : List Char} (h : Delimits rest) :
    ∀ c ∈ rest.head?, c.isDigit = false ∧ c ≠ '.' :=
  fun c hc => ⟨isDigit_of_isNameChar (h c hc).1, (h c hc).2⟩

/-- How many placeholders without a name there are among some tokens. -/
def positionals (tokens : List Token) : Nat := (tokens.map Token.positionalCount).sum

/-- With `first` placeholders before it, the text is read as these tokens, and `used` of them are
placeholders without a name. -/
structure Written (first : Nat) (text : List Char) (used : Nat) (tokens : List Token) : Prop where
  /-- The text begins with a lexeme that an exclamation mark in front does not change. -/
  head : text.head?.any (· ≠ '=') = true
  nonempty : tokens ≠ []
  count : positionals tokens = used
  reads : ∀ rest, Delimits rest → Lexer.Reads first text tokens rest

namespace Lexer

/-- A token that is no placeholder leaves the count as it is. -/
theorem Reads.cons {count : Nat} {front back rest : List Char} {token : Token}
    {tokens : List Token} (plain : token.positionalCount = 0)
    (h : Reads count front [token] (back ++ rest)) (h' : Reads count back tokens rest) :
    Reads count (front ++ back) (token :: tokens) rest := by
  show Reads count (front ++ back) ([token] ++ tokens) rest
  refine h.append ?_
  simpa [plain] using h'

/-- The marks that are never part of a longer one. -/
def loneMarks : List (Char × Token) :=
  [('$', .dollar), ('@', .atSign), ('.', .dot), ('*', .star), ('?', .question), ('(', .openParen),
    (')', .closeParen), ('[', .openBracket), (']', .closeBracket)]

/-- A mark that is never part of a longer one may stand before anything. -/
theorem Reads.mark {count : Nat} {c : Char} {token : Token} {back rest : List Char}
    {tokens : List Token} (h : Reads count back tokens rest) (lone : (c, token) ∈ loneMarks) :
    Reads count (c :: back) (token :: tokens) rest := by
  have hmark : Reads count [c] [token] (back ++ rest) ∧ token.positionalCount = 0 := by
    simp only [loneMarks, List.mem_cons, Prod.mk.injEq, List.not_mem_nil, or_false] at lone
    rcases lone with ⟨rfl, rfl⟩ | ⟨rfl, rfl⟩ | ⟨rfl, rfl⟩ | ⟨rfl, rfl⟩ | ⟨rfl, rfl⟩ | ⟨rfl, rfl⟩ |
      ⟨rfl, rfl⟩ | ⟨rfl, rfl⟩ | ⟨rfl, rfl⟩
    all_goals exact ⟨reads_mark rfl (by decide) (by decide) fun _ _ => rfl, rfl⟩
  exact .cons hmark.2 hmark.1 h

end Lexer

namespace Written

variable {first used : Nat} {text : List Char} {tokens : List Token}

/-- Text behind a blank is read as before. -/
theorem blank (h : Written first text used tokens) {rest : List Char} (hrest : Delimits rest) :
    Lexer.Reads first (' ' :: text) tokens rest := by
  obtain ⟨token, more, rfl⟩ := List.exists_cons_of_ne_nil h.nonempty
  exact (h.reads rest hrest).blank (by decide)

theorem parens (h : Written first text used tokens) :
    Written first ('(' :: (text ++ [')'])) used (.openParen :: (tokens ++ [.closeParen])) where
  head := by simp
  nonempty := by simp
  count := by simpa [positionals, Token.positionalCount] using h.count
  reads := by
    intro rest _
    refine .mark ?_ (by simp [Lexer.loneMarks])
    refine (h.reads _ (delimits_cons rest (by decide))).append ?_
    exact (Lexer.reads_nil _ rest).mark (by simp [Lexer.loneMarks])

theorem not (h : Written first text used tokens) :
    Written first ('!' :: text) used (.bang :: tokens) where
  head := by simp
  nonempty := by simp
  count := by simpa [positionals, Token.positionalCount] using h.count
  reads := by
    intro rest hrest
    obtain ⟨c, more, rfl⟩ : ∃ c more, text = c :: more := by
      cases text with
      | nil => cases h.head
      | cons c more => exact ⟨c, more, rfl⟩
    have hne : c ≠ '=' := by simpa using h.head
    have alone : Shape.pairMark? '!' c = none := by
      unfold Shape.pairMark?
      split
      all_goals first | rfl | simp_all
    show Lexer.Reads first (['!'] ++ c :: more) (.bang :: tokens) rest
    refine .cons rfl (Lexer.reads_mark rfl (by decide) (by decide) ?_) (h.reads rest hrest)
    intro d hd
    obtain rfl : c = d := Option.some.inj hd
    exact alone

/-- A sign between two operands, with blanks around it. -/
theorem between {used' : Nat} {symbol text' : List Char} {token : Token} {tokens' : List Token}
    (h : Written first text used tokens) (h' : Written (first + used) text' used' tokens')
    (plain : token.positionalCount = 0)
    (sign : ∀ rest, Lexer.Reads (first + used) symbol [token] (' ' :: rest)) :
    Written first (text ++ ' ' :: (symbol ++ ' ' :: text')) (used + used')
      (tokens ++ token :: tokens') where
  head := by
    have := h.head
    cases text with
    | nil => cases this
    | cons c more => exact this
  nonempty := by simp
  count := by
    rw [← h.count, ← h'.count]
    simp [positionals, plain]
  reads := by
    intro rest hrest
    refine (h.reads _ (delimits_cons _ (by decide))).append ?_
    show Lexer.Reads (first + positionals tokens) (' ' :: symbol ++ ' ' :: text') _ rest
    rw [h.count]
    exact .cons plain ((sign _).blank (by decide)) (h'.blank hrest)

end Written

/-- The sign of a comparison is read before a blank. -/
theorem reads_sign (sign : Sign) (count : Nat) (rest : List Char) :
    Lexer.Reads count sign.operator.symbol.toList [sign.token] (' ' :: rest) := by
  cases sign with
  | less => exact Lexer.reads_mark rfl (by decide) (by decide) (by simp [Shape.pairMark?])
  | greater => exact Lexer.reads_mark rfl (by decide) (by decide) (by simp [Shape.pairMark?])
  | _ => exact Lexer.reads_pairMark rfl (by decide) (by decide) _

theorem written_null (first : Nat) : Written first "null".toList 0 [.null] where
  head := by decide
  nonempty := by simp
  count := rfl
  reads := fun rest hrest => Lexer.reads_word (by decide) hrest.word

/-! ## Paths -/

/-- The names of a path as they are written. -/
def pathText (path : List String) : List Char := path.flatMap fun name => '.' :: name.toList

theorem readWord_of_isIdentifier {name : String} (h : IsIdentifier name) :
    readWord name.toList = .identifier name := by
  obtain ⟨-, htrue, hfalse, hnull⟩ := h
  unfold readWord
  rw [String.ofList_toList]
  split <;> first | contradiction | rfl

theorem reads_pathText {path : List String} (identifiers : ∀ name ∈ path, IsIdentifier name)
    (count : Nat) {rest : List Char} (stop : ∀ c ∈ rest.head?, isNameChar c = false) :
    Lexer.Reads count (pathText path) (pathTokens path) rest := by
  induction path with
  | nil => exact Lexer.reads_nil count rest
  | cons name path ih =>
      obtain ⟨hname, hpath⟩ := List.forall_mem_cons.mp identifiers
      have stopName : ∀ c ∈ (pathText path ++ rest).head?, isNameChar c = false := by
        cases path with
        | nil => exact stop
        | cons next path =>
            intro c hc
            obtain rfl : '.' = c := Option.some.inj hc
            decide
      have hword : Lexer.Reads count name.toList [.identifier name] (pathText path ++ rest) := by
        rw [← readWord_of_isIdentifier hname]
        exact Lexer.reads_word hname.1 stopName
      show Lexer.Reads count ('.' :: (name.toList ++ pathText path))
        (.dot :: .identifier name :: pathTokens path) rest
      exact (Lexer.Reads.cons rfl hword (ih hpath)).mark (by simp [Lexer.loneMarks])

/-- The character of a root. -/
def Grammar.Anchor.symbol : Anchor → Char
  | document => '$'
  | here => '@'

theorem pathText_concat (path : List String) (name : String) :
    pathText (path ++ [name]) = pathText path ++ '.' :: name.toList := by
  simp [pathText]

/-- A scope path is a root and the names behind it. -/
theorem IsScopePath.exists_path {inTest : Bool} {scope : Node} (h : IsScopePath inTest scope) :
    ∃ (anchor : Anchor) (path : List String), (∀ name ∈ path, IsIdentifier name) ∧
      scope = path.foldl .object (anchor.root inTest) ∧
      scope.render.toList = anchor.symbol :: pathText path := by
  induction h with
  | document => exact ⟨.document, [], by simp, rfl, rfl⟩
  | element inside => exact ⟨.here, [], by simp, by simp [Anchor.root, inside], rfl⟩
  | @object parent name _ identifier ih =>
      obtain ⟨anchor, path, identifiers, rfl, htext⟩ := ih
      refine ⟨anchor, path ++ [name], ?_, by simp, ?_⟩
      · exact List.forall_mem_append.mpr ⟨identifiers, List.forall_mem_singleton.mpr identifier⟩
      · simp [Node.render, htext, pathText_concat]

theorem written_anchor (anchor : Anchor) {path : List String}
    (identifiers : ∀ name ∈ path, IsIdentifier name) (first : Nat) :
    Written first (anchor.symbol :: pathText path) 0 (anchor.token :: pathTokens path) where
  head := by cases anchor <;> rfl
  nonempty := by simp
  count := by
    have plain (names : List String) : positionals (pathTokens names) = 0 := by
      induction names with
      | nil => rfl
      | cons name names ih =>
          simpa [positionals, pathTokens, Token.positionalCount] using ih
    have := plain path
    cases anchor <;> simpa [positionals, Anchor.token, Token.positionalCount] using this
  reads := by
    intro rest hrest
    refine (reads_pathText identifiers first hrest.word).mark ?_
    cases anchor <;> simp [Anchor.symbol, Anchor.token, Lexer.loneMarks]

/-! ## Operands -/

/-- A collection test is written behind its path. -/
theorem Written.test {first used : Nat} {path text : List Char} {names tokens : List Token}
    (hpath : Written first path 0 names) (htest : Written first text used tokens) :
    Written first (path ++ '[' :: '*' :: ']' :: '[' :: '?' :: '(' :: (text ++ [')', ']'])) used
      (names ++ (anyElement ++ (.openBracket :: .question :: .openParen ::
        (tokens ++ [.closeParen, .closeBracket])))) where
  head := by
    have := hpath.head
    cases path with
    | nil => cases this
    | cons c more => exact this
  nonempty := by simp [anyElement]
  count := by
    have hzero : (names.map Token.positionalCount).sum = 0 := hpath.count
    rw [← htest.count]
    simp [positionals, anyElement, hzero, Token.positionalCount]
  reads := by
    intro rest _
    refine (hpath.reads _ (delimits_cons _ (by decide))).append ?_
    have hzero : (names.map Token.positionalCount).sum = 0 := hpath.count
    rw [hzero, Nat.add_zero]
    have hclose : Lexer.Reads (first + positionals tokens) [')', ']'] [.closeParen, .closeBracket]
        rest := by
      iterate 2 refine Lexer.Reads.mark ?_ (by simp [Lexer.loneMarks])
      exact Lexer.reads_nil _ rest
    have hinner := (htest.reads (')' :: ']' :: rest) (delimits_cons _ (by decide))).append hclose
    iterate 6 refine Lexer.Reads.mark ?_ (by simp [Lexer.loneMarks])
    exact hinner

theorem written_word {name : String} {token : Token} (hname : isName name.toList = true)
    (hread : readWord name.toList = token) (plain : token.positionalCount = 0) (first : Nat) :
    Written first name.toList 0 [token] where
  head := by
    generalize name.toList = text at hname
    cases text with
    | nil => cases hname
    | cons c rest =>
        have hne : c ≠ '=' := by
          rintro rfl
          cases hname
        simpa using hne
  nonempty := by simp
  count := by simpa [positionals] using plain
  reads := fun rest hrest => hread ▸ Lexer.reads_word hname hrest.word

/-- A number begins with its sign or a digit. -/
theorem head_number (negative : Bool) {digits : List Char} (h : IsDigits digits)
    (rest : List Char) : (signText negative ++ (digits ++ rest)).head?.any (· ≠ '=') = true := by
  cases negative with
  | true => rfl
  | false =>
      obtain ⟨d, more, rfl⟩ := List.exists_cons_of_ne_nil h.1
      have hne : d ≠ '=' := by
        rintro rfl
        exact absurd (h.2 '=' List.mem_cons_self) (by decide)
      simpa [signText] using hne

theorem written_integer (n : Integer) (first : Nat) :
    Written first n.render.toList 0 [.integer n] where
  head := by
    obtain ⟨negative, digits, htext, hdigits, -⟩ := n.render_spec
    rw [htext]
    simpa using head_number negative hdigits []
  nonempty := by simp
  count := rfl
  reads := fun rest hrest => Lexer.reads_integer n hrest.number

theorem written_float {x : Binary64} (h : x.isFinite = true) (first : Nat) :
    Written first (Value.float x).renderLiteral.toList 0 [.float x] where
  head := by
    obtain ⟨negative, whole, fraction, htext, hwhole, -, -⟩ :=
      Binary64.isLiteralText_renderLiteral h
    rw [htext, List.append_assoc]
    exact head_number negative hwhole _
  nonempty := by simp
  count := rfl
  reads := fun rest hrest =>
    Lexer.reads_float (Binary64.isLiteralText_renderLiteral h) fun c hc => (hrest.number c hc).1

theorem written_atom {a : Atom} (spelled : a.HasSpelling) {first : Nat}
    (numbered : a.node.NumberedFrom first) :
    Written first a.node.render.toList a.node.positions.length [a.token] := by
  cases a with
  | integer n => exact written_integer n first
  | float x => exact written_float spelled first
  | text s =>
      exact ⟨by simp [Atom.node, Node.literal, Node.render, Operand.render, Value.renderLiteral,
        toList_literalText], by simp, rfl, fun rest _ => Lexer.reads_text s rest⟩
  | boolean b =>
      cases b with
      | true =>
          show Written first "true".toList 0 [.boolean true]
          exact written_word (by decide) rfl rfl first
      | false =>
          show Written first "false".toList 0 [.boolean false]
          exact written_word (by decide) rfl rfl first
  | null => exact written_null first
  | placeholder p =>
      obtain ⟨key, kind⟩ := p
      cases key with
      | position index =>
          obtain rfl : index = first := (List.cons.inj numbered).1
          exact ⟨by simp [Atom.node, Node.placeholder, Node.render, Operand.render,
            toList_render_position], by simp, rfl, fun rest _ => Lexer.reads_position kind rest⟩
      | name name =>
          exact ⟨by simp [Atom.node, Node.placeholder, Node.render, Operand.render,
            toList_render_name], by simp, rfl, fun rest _ => Lexer.reads_named kind spelled rest⟩

/-! ## Trees -/

/-- The text of an operand is that of a derivation that means it. -/
def OperandSpelled (inTest : Bool) (tree : Node) : Prop :=
  ∀ first, tree.NumberedFrom first → ∃ d : Derivation .operand, d.tree inTest = tree ∧
    Written first tree.render.toList tree.positions.length d.tokens

/-- The text of a condition, and its text as an operand, are those of derivations that mean it. -/
def ConditionSpelled (inTest : Bool) (tree : Node) : Prop :=
  ∀ first, tree.NumberedFrom first →
    (∃ d : Derivation .or, d.tree inTest = tree ∧
      Written first tree.render.toList tree.positions.length d.tokens) ∧
    ∃ d : Derivation .unary, d.tree inTest = tree ∧
      Written first (Node.grouped tree.needsGrouping tree.render).toList tree.positions.length
        d.tokens

/-- What is carried along the construction of a tree. -/
def Spelled : Place → Bool → Node → Prop
  | .operand => OperandSpelled
  | .condition => ConditionSpelled

section Condition

variable {inTest : Bool} {tree : Node}

/-- A condition that needs no parentheses stands by itself. -/
theorem conditionSpelled_of_unary (plain : tree.needsGrouping = false)
    (h : ∀ first, tree.NumberedFrom first → ∃ d : Derivation .unary, d.tree inTest = tree ∧
      Written first tree.render.toList tree.positions.length d.tokens) :
    ConditionSpelled inTest tree := by
  intro first numbered
  obtain ⟨d, htree, hwritten⟩ := h first numbered
  refine ⟨⟨.or (.and d .andEnd) .orEnd, htree, ?_⟩, d, htree, ?_⟩
  · simpa [Derivation.tokens] using hwritten
  · simpa [Node.grouped, plain] using hwritten

/-- Any other condition stands in parentheses where it is negated or joined. -/
theorem conditionSpelled_of_or (grouped : tree.needsGrouping = true)
    (h : ∀ first, tree.NumberedFrom first → ∃ d : Derivation .or, d.tree inTest = tree ∧
      Written first tree.render.toList tree.positions.length d.tokens) :
    ConditionSpelled inTest tree := by
  intro first numbered
  obtain ⟨d, htree, hwritten⟩ := h first numbered
  refine ⟨⟨d, htree, hwritten⟩, .group d, htree, ?_⟩
  simpa [Node.grouped, grouped, Derivation.tokens] using hwritten.parens

end Condition

section Operand

variable {inTest : Bool} {operand : Node}

theorem Expressible.needsGrouping (h : Expressible .operand inTest operand) :
    operand.needsGrouping = false := by
  cases h with
  | atom a spelled => cases a <;> rfl
  | field path identifier => rfl
  | collection path identifier test => rfl

/-- Only the literal `null` means `null`. -/
theorem isNull_eq_false {d : Derivation .operand} (h : d.tree inTest ≠ .literal .null) :
    d.isNull = false := by
  cases d with
  | atom a =>
      cases a with
      | null => exact absurd rfl h
      | _ => rfl
  | field anchor path named => rfl
  | test anchor path named filter => rfl

theorem operandSpelled_atom {a : Atom} (spelled : a.HasSpelling) : OperandSpelled inTest a.node :=
  fun _ numbered => ⟨.atom a, rfl, written_atom spelled numbered⟩

/-- A named scope is a root and at least one name. -/
theorem exists_named {scope : Node} {name : String} (path : IsScopePath inTest scope)
    (identifier : IsIdentifier name) :
    ∃ (anchor : Anchor) (names : List String), (∀ other ∈ names ++ [name], IsIdentifier other) ∧
      scope = names.foldl .object (anchor.root inTest) ∧
      (scope.render ++ "." ++ name).toList = anchor.symbol :: pathText (names ++ [name]) := by
  obtain ⟨anchor, names, identifiers, hscope, htext⟩ := path.exists_path
  refine ⟨anchor, names, ?_, hscope, by simp [htext, pathText_concat]⟩
  exact List.forall_mem_append.mpr ⟨identifiers, List.forall_mem_singleton.mpr identifier⟩

theorem operandSpelled_field {scope : Node} {name : String} (path : IsScopePath inTest scope)
    (identifier : IsIdentifier name) : OperandSpelled inTest (.field scope name) := by
  intro first _
  obtain ⟨anchor, names, identifiers, hscope, htext⟩ := exists_named path identifier
  have hpositions : (Node.field scope name).positions = [] := path.positions
  rw [hpositions]
  refine ⟨.field anchor (names ++ [name]) (by simp), by simp [Derivation.tree, hscope], ?_⟩
  rw [Node.render, htext]
  exact written_anchor anchor identifiers first

theorem operandSpelled_collection {scope predicate : Node} {name : String}
    (path : IsScopePath inTest scope) (identifier : IsIdentifier name)
    (test : ConditionSpelled true predicate) :
    OperandSpelled inTest (.collection (.object scope name) predicate) := by
  intro first numbered
  obtain ⟨anchor, names, identifiers, hscope, htext⟩ := exists_named path identifier
  have hpositions : (Node.collection (.object scope name) predicate).positions =
      predicate.positions := by
    show scope.positions ++ predicate.positions = _
    rw [path.positions, List.nil_append]
  rw [Node.NumberedFrom, hpositions] at numbered
  obtain ⟨⟨d, htree, hwritten⟩, -⟩ := test first numbered
  rw [hpositions]
  refine ⟨.test anchor (names ++ [name]) (by simp)
    (.bracketed (.or (.and (.group d) .andEnd) .orEnd)), ?_, ?_⟩
  · show Node.collection _ (d.tree true) = _
    rw [htree, hscope, List.foldl_append]
    rfl
  · have hrender : (Node.collection (.object scope name) predicate).render.toList =
        (anchor.symbol :: pathText (names ++ [name])) ++
          '[' :: '*' :: ']' :: '[' :: '?' :: '(' :: (predicate.render.toList ++ [')', ']']) := by
      rw [← htext]
      simp [Node.render]
    rw [hrender]
    simpa [Derivation.tokens] using (written_anchor anchor identifiers first).test hwritten

end Operand

section Condition

variable {inTest : Bool} {left right operand condition : Node}

theorem conditionSpelled_single (h : Expressible .operand inTest operand)
    (spelled : OperandSpelled inTest operand) : ConditionSpelled inTest operand := by
  refine conditionSpelled_of_unary h.needsGrouping fun first numbered => ?_
  obtain ⟨d, htree, hwritten⟩ := spelled first numbered
  exact ⟨.plain (.single d), htree, hwritten⟩

theorem conditionSpelled_not (spelled : ConditionSpelled inTest condition) :
    ConditionSpelled inTest (.not condition) := by
  refine conditionSpelled_of_unary rfl fun first numbered => ?_
  obtain ⟨-, d, htree, hwritten⟩ := spelled first numbered
  refine ⟨.not d, congrArg Node.not htree, ?_⟩
  simpa [Node.not, Node.before, Node.render, Operator.symbol, Node.positions, Derivation.tokens]
    using hwritten.not

/-- A comparison of two operands, neither of which needs parentheses. -/
theorem conditionSpelled_comparison (sign : Sign) (hleft : Expressible .operand inTest left)
    (hright : Expressible .operand inTest right)
    (usual : sign = .equal ∨ sign = .notEqual → right ≠ .literal .null)
    (spelledLeft : OperandSpelled inTest left) (spelledRight : OperandSpelled inTest right) :
    ConditionSpelled inTest (.between left sign.operator right) := by
  refine conditionSpelled_of_or rfl fun first numbered => ?_
  obtain ⟨numberedLeft, numberedRight⟩ := range'_append_iff numbered
  obtain ⟨d, htree, hwritten⟩ := spelledLeft first numberedLeft
  obtain ⟨d', htree', hwritten'⟩ := spelledRight _ numberedRight
  refine ⟨.or (.and (.plain (.pair d sign d')) .andEnd) .orEnd, ?_, ?_⟩
  · show sign.compare (d.tree inTest) d'.isNull (d'.tree inTest) = _
    have not_null (h : sign = .equal ∨ sign = .notEqual) : d'.isNull = false :=
      isNull_eq_false (htree' ▸ usual h)
    rw [htree, htree']
    cases sign with
    | equal => rw [not_null (.inl rfl)]; rfl
    | notEqual => rw [not_null (.inr rfl)]; rfl
    | _ => rfl
  · have hsign := hwritten.between hwritten' (by cases sign <;> rfl) (reads_sign sign _)
    simpa [Node.between, Node.render, Node.grouped, hleft.needsGrouping, hright.needsGrouping,
      Derivation.tokens, Node.positions] using hsign

/-- A comparison with `null` on the right, be it a null test or not, is written with the sign. -/
theorem conditionSpelled_compareNull (sign : Sign) (h : Expressible .operand inTest operand)
    (spelled : OperandSpelled inTest operand) :
    ConditionSpelled inTest (sign.compare operand true (.literal .null)) := by
  have hpositions : (sign.compare operand true (.literal .null)).positions =
      operand.positions := by
    cases sign <;> simp [Sign.compare, Node.isNull, Node.isNotNull, Node.after, Node.between,
      Node.positions, Node.literal]
  have hrender : (sign.compare operand true (.literal .null)).render.toList =
      operand.render.toList ++ ' ' :: (sign.operator.symbol.toList ++ ' ' :: "null".toList) := by
    have plainNull : (Node.value (.literal .null)).needsGrouping = false := rfl
    cases sign <;> simp [Sign.compare, Node.isNull, Node.isNotNull, Node.after, Node.between,
      Node.render, Node.afterSymbol, Node.grouped, h.needsGrouping, Sign.operator, Operator.symbol,
      Node.literal, plainNull, Operand.render, Value.renderLiteral, Value.render]
  have hgrouped : (sign.compare operand true (.literal .null)).needsGrouping = true := by
    cases sign <;> rfl
  refine conditionSpelled_of_or hgrouped fun first numbered => ?_
  rw [Node.NumberedFrom, hpositions] at numbered
  obtain ⟨d, htree, hwritten⟩ := spelled first numbered
  refine ⟨.or (.and (.plain (.pair d sign (.atom .null))) .andEnd) .orEnd, ?_, ?_⟩
  · show sign.compare (d.tree inTest) true (.literal .null) = _
    rw [htree]
  · rw [hrender, hpositions]
    have hsign := hwritten.between (written_null _) (by cases sign <;> rfl) (reads_sign sign _)
    simpa [Derivation.tokens, Atom.token] using hsign

theorem reads_and (count : Nat) (rest : List Char) :
    Lexer.Reads count ['&', '&'] [.andAnd] (' ' :: rest) :=
  Lexer.reads_pairMark rfl (by decide) (by decide) _

theorem reads_or (count : Nat) (rest : List Char) :
    Lexer.Reads count ['|', '|'] [.orOr] (' ' :: rest) :=
  Lexer.reads_pairMark rfl (by decide) (by decide) _

/-- Joined conditions, each in parentheses if it needs them. -/
theorem conditionSpelled_and (spelledLeft : ConditionSpelled inTest left)
    (spelledRight : ConditionSpelled inTest right) :
    ConditionSpelled inTest (.between left .and right) := by
  refine conditionSpelled_of_or rfl fun first numbered => ?_
  obtain ⟨numberedLeft, numberedRight⟩ := range'_append_iff numbered
  obtain ⟨-, d, htree, hwritten⟩ := spelledLeft first numberedLeft
  obtain ⟨-, d', htree', hwritten'⟩ := spelledRight _ numberedRight
  refine ⟨.or (.and d (.andMore d' .andEnd)) .orEnd, ?_, ?_⟩
  · show Node.between (d.tree inTest) .and (d'.tree inTest) = _
    rw [htree, htree']
  · simpa [Node.between, Node.render, Operator.symbol, Derivation.tokens, Node.positions]
      using hwritten.between hwritten' rfl (reads_and _)

theorem conditionSpelled_or (spelledLeft : ConditionSpelled inTest left)
    (spelledRight : ConditionSpelled inTest right) :
    ConditionSpelled inTest (.between left .or right) := by
  refine conditionSpelled_of_or rfl fun first numbered => ?_
  obtain ⟨numberedLeft, numberedRight⟩ := range'_append_iff numbered
  obtain ⟨-, d, htree, hwritten⟩ := spelledLeft first numberedLeft
  obtain ⟨-, d', htree', hwritten'⟩ := spelledRight _ numberedRight
  refine ⟨.or (.and d .andEnd) (.orMore (.and d' .andEnd) .orEnd), ?_, ?_⟩
  · show Node.between (d.tree inTest) .or (d'.tree inTest) = _
    rw [htree, htree']
  · simpa [Node.between, Node.render, Operator.symbol, Derivation.tokens, Node.positions]
      using hwritten.between hwritten' rfl (reads_or _)

end Condition

theorem Expressible.spelled {place : Place} {inTest : Bool} {tree : Node}
    (h : Expressible place inTest tree) : Spelled place inTest tree := by
  induction h with
  | atom a spelled => exact operandSpelled_atom spelled
  | field path identifier => exact operandSpelled_field path identifier
  | collection path identifier _ ih => exact operandSpelled_collection path identifier ih
  | single h ih => exact conditionSpelled_single h ih
  | comparison sign hleft hright usual ihLeft ihRight =>
      exact conditionSpelled_comparison sign hleft hright usual ihLeft ihRight
  | isNull h ih => exact conditionSpelled_compareNull .equal h ih
  | isNotNull h ih => exact conditionSpelled_compareNull .notEqual h ih
  | not _ ih => exact conditionSpelled_not ih
  | and _ _ ihLeft ihRight => exact conditionSpelled_and ihLeft ihRight
  | or _ _ ihLeft ihRight => exact conditionSpelled_or ihLeft ihRight

/-- The tokens of a whole template from those of the condition between its parentheses. -/
theorem reads_template {text : List Char} {used : Nat} {tokens : List Token}
    (h : Written 0 text used tokens) :
    Lexer.Reads 0 ('$' :: '[' :: '?' :: '(' :: (text ++ [')', ']']))
      (.dollar :: .openBracket :: .question :: .openParen ::
        (tokens ++ [.closeParen, .closeBracket])) [] := by
  have hclose : Lexer.Reads (0 + positionals tokens) [')', ']'] [.closeParen, .closeBracket] [] := by
    iterate 2 refine Lexer.Reads.mark ?_ (by simp [Lexer.loneMarks])
    exact Lexer.reads_nil _ []
  iterate 4 refine Lexer.Reads.mark ?_ (by simp [Lexer.loneMarks])
  exact (h.reads [')', ']'] (delimits_cons _ (by decide))).append hclose

/-- A text that is read to its end is tokenized. -/
theorem tokenize_of_reads {text : String} {tokens : List Token}
    (h : Lexer.Reads 0 text.toList tokens []) :
    ∃ lexemes, tokenize text = .ok lexemes ∧ lexemes.map Lexeme.token = tokens ++ [.eof] := by
  obtain ⟨after, hscans, hafter, -⟩ :=
    h (Lexer.ofInput text) (by simp [Lexer.ofInput]) rfl
  exact hscans.upToEnd hafter (Nat.le_refl _)

/-- The text of an expressible tree is parsed to the tree. -/
theorem Expressible.parse_template {tree : Node} (h : Expressible .condition false tree)
    (numbered : tree.NumberedFrom 0) :
    Node.parse (Specification.ofTree tree).template = .ok tree := by
  obtain ⟨⟨d, htree, hwritten⟩, -⟩ := h.spelled 0 numbered
  have htext : (Specification.ofTree tree).template.toList =
      '$' :: '[' :: '?' :: '(' :: (tree.render.toList ++ [')', ']']) := by
    simp [Specification.ofTree]
  have hreads := reads_template hwritten
  rw [← htext] at hreads
  obtain ⟨lexemes, htokenize, htokens⟩ := tokenize_of_reads hreads
  refine (parse_eq_ok_iff htokenize).mpr
    ⟨.whole (.bracketed (.or (.and (.group d) .andEnd) .orEnd)), ?_, htree⟩
  rw [Spells, htokens]
  simp [Derivation.tokens]

/-- The template that an expressible tree is written as is read as the tree. -/
theorem parse_ofTree {tree : Node} (expressible : Expressible .condition false tree)
    (numbered : tree.NumberedFrom 0) :
    Specification.parse (Specification.ofTree tree).template =
      .ok (Specification.ofTree tree) := by
  unfold Specification.parse
  rw [expressible.parse_template numbered]
  rfl

/-- A negated null test, and a collection test that joins a placeholder, a number that is negative
zero and a string with a quote and a line feed. -/
def sampleTree : Node :=
  .between (.not (.isNull (.field .globalScope "a"))) .and
    (.collection (.object .globalScope "xs")
      (.between
        (.between (.field .item "b") .greaterThan (.placeholder ⟨.position 0, .integer⟩)) .or
        (.between (.literal (.float (.zero true))) .notEqual (.literal (.text "say \"no\"\n")))))

theorem expressible_sampleTree : Expressible .condition false sampleTree := by
  have identifier (name : String) (h : name ∈ ["a", "b", "xs"]) : IsIdentifier name := by
    simp only [List.mem_cons, List.not_mem_nil, or_false] at h
    rcases h with rfl | rfl | rfl <;> exact ⟨by decide, by decide, by decide, by decide⟩
  have greater : Expressible .condition true
      (.between (.field .item "b") .greaterThan (.placeholder ⟨.position 0, .integer⟩)) :=
    .comparison .greater (.field (.element rfl) (identifier "b" (by simp)))
      (.atom (.placeholder ⟨.position 0, .integer⟩) trivial) (by simp)
  have different : Expressible .condition true (.between (.literal (.float (.zero true))) .notEqual
      (.literal (.text "say \"no\"\n"))) :=
    .comparison .notEqual (.atom (.float (.zero true)) rfl) (.atom (.text _) trivial)
      (by simp [Node.literal])
  exact .and (.not (.isNull (.field .document (identifier "a" (by simp)))))
    (.single (.collection .document (identifier "xs" (by simp)) (.or greater different)))

theorem parse_sampleTree :
    (Specification.ofTree sampleTree).template =
        "$[?(!($.a == null) && $.xs[*][?((@.b > %d) || (-0.0 != \"say \\\"no\\\"\\n\"))])]" ∧
      Specification.parse (Specification.ofTree sampleTree).template =
        .ok (Specification.ofTree sampleTree) :=
  ⟨by decide +kernel, parse_ofTree expressible_sampleTree rfl⟩

end DataFilter
