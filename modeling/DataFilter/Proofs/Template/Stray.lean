import DataFilter.Proofs.Node.Scoped
import DataFilter.Proofs.Template.Dissection
import DataFilter.Proofs.Template.Embedding
import DataFilter.Proofs.Template.Grounded
import DataFilter.Proofs.Template.Opening

/-!
# Names that stand behind no point

In a template every name stands right behind a point. So a text cannot be that of a template if the
lexer finds a name elsewhere in it, and that is what happens to a number that is not finite: it is
written as a word. `Stray` says this of a text, and it is passed on from a part of a tree to the
whole. With it, every condition of a template is either expressible, so that its text is read back,
or it has a number that is not finite, and its text is that of no template (`Reprints`).
-/

namespace DataFilter

namespace Grammar

/-! ## Names and points -/

/-- Every name stands right behind a point. -/
def NamesFollow (tokens : List Token) : Prop :=
  ∀ front name back, tokens = front ++ .identifier name :: back → front.getLast? = some .dot

theorem NamesFollow.append {front back : List Token} (h : NamesFollow front)
    (h' : NamesFollow back) : NamesFollow (front ++ back) := by
  intro before name behind split
  rcases List.append_eq_append_iff.mp split with ⟨middle, rfl, inside⟩ | ⟨middle, inside, same⟩
  · rw [List.getLast?_append, h' middle name behind inside, Option.some_or]
  · cases middle with
    | nil => exact nomatch h' [] name behind same.symm
    | cons token middle =>
        obtain ⟨rfl, -⟩ := List.cons.inj same
        exact h before name middle inside

theorem namesFollow_of_no_name {tokens : List Token}
    (plain : ∀ name, .identifier name ∉ tokens) : NamesFollow tokens := by
  rintro front name back rfl
  exact absurd (List.mem_append_right front List.mem_cons_self) (plain name)

theorem NamesFollow.cons {token : Token} {tokens : List Token} (h : NamesFollow tokens)
    (other : ∀ name, token ≠ .identifier name) : NamesFollow (token :: tokens) :=
  (namesFollow_of_no_name fun name hmem => other name (List.mem_singleton.mp hmem).symm).append h

/-- What stands behind anything but a point has its points itself. -/
theorem NamesFollow.behind {front back : List Token} {token : Token}
    (h : NamesFollow (front ++ token :: back)) (other : token ≠ .dot) : NamesFollow back := by
  rintro before name behind rfl
  have last := h (front ++ token :: before) name behind (by simp)
  rw [List.getLast?_append] at last
  cases before with
  | nil => exact absurd (Option.some.inj last) other
  | cons next before =>
      rw [List.getLast?_cons_cons, List.getLast?_cons, Option.some_or] at last
      rwa [List.getLast?_cons]

theorem NamesFollow.tail {token : Token} {tokens : List Token} (h : NamesFollow (token :: tokens))
    (other : token ≠ .dot) : NamesFollow tokens :=
  NamesFollow.behind (List.nil_append (token :: tokens) ▸ h) other

theorem namesFollow_pathTokens (path : List String) : NamesFollow (pathTokens path) := by
  induction path with
  | nil => exact namesFollow_of_no_name nofun
  | cons name path ih =>
      show NamesFollow ([.dot, .identifier name] ++ pathTokens path)
      refine NamesFollow.append ?_ ih
      intro front other back split
      rcases front with _ | ⟨point, _ | ⟨token, front⟩⟩
      · cases split
      · obtain rfl := (List.cons.inj split).1
        rfl
      · have none_left := (List.cons.inj (List.cons.inj split).2).2
        simp at none_left

theorem namesFollow_path (anchor : Anchor) (path : List String) :
    NamesFollow (anchor.token :: pathTokens path) :=
  (namesFollow_pathTokens path).cons fun _ => by cases anchor <;> exact Token.noConfusion

theorem namesFollow_collection (anchor : Anchor) (path : List String) {tokens : List Token}
    (h : NamesFollow tokens) :
    NamesFollow (anchor.token :: pathTokens path ++ anyElement ++ tokens) :=
  ((namesFollow_path anchor path).append (namesFollow_of_no_name (by simp [anyElement]))).append h

/-- The names of a template stand behind points. -/
theorem Derivation.namesFollow {c : Category} (d : Derivation c) : NamesFollow d.tokens := by
  induction d with
  | whole filter ih => exact ih.cons fun _ => Token.noConfusion
  | elements path named filter ih => exact namesFollow_collection .document path ih
  | bracketed condition ih =>
      exact ((ih.cons fun _ => Token.noConfusion).cons fun _ => Token.noConfusion).append (namesFollow_of_no_name (by simp))
  | or first rest ihFirst ihRest => exact ihFirst.append ihRest
  | orEnd => exact namesFollow_of_no_name nofun
  | orMore next rest ihNext ihRest => exact (ihNext.cons fun _ => Token.noConfusion).append ihRest
  | and first rest ihFirst ihRest => exact ihFirst.append ihRest
  | andEnd => exact namesFollow_of_no_name nofun
  | andMore next rest ihNext ihRest => exact (ihNext.cons fun _ => Token.noConfusion).append ihRest
  | not operand ih => exact ih.cons fun _ => Token.noConfusion
  | group condition ih => exact (ih.cons fun _ => Token.noConfusion).append (namesFollow_of_no_name (by simp))
  | plain comparison ih => exact ih
  | single operand ih => exact ih
  | pair left sign right ihLeft ihRight =>
      exact ihLeft.append (ihRight.cons fun name => by cases sign <;> exact Token.noConfusion)
  | atom a => exact namesFollow_of_no_name (by cases a <;> simp [Atom.token])
  | field anchor path named => exact namesFollow_path anchor path
  | test anchor path named filter ih => exact namesFollow_collection anchor path ih

end Grammar

open Grammar

/-! ## Texts with such a name -/

/-- Where neither a name nor a number is prolonged by what follows, the text is lexed to tokens with
a name that stands behind no point, if it is lexed at all. -/
structure Stray (first : Nat) (text : List Char) : Prop where
  /-- The text begins with a lexeme that an exclamation mark in front does not change. -/
  head : text.head?.any (· ≠ '=') = true
  lexed : ∀ rest tokens, Delimits rest → Lexer.LexesTo first (text ++ rest) tokens →
    ¬NamesFollow tokens

theorem head_append {front : List Char} (h : front.head?.any (· ≠ '=') = true)
    (back : List Char) : (front ++ back).head?.any (· ≠ '=') = true := by
  cases front with
  | nil => cases h
  | cons c front => exact h

/-- A word by itself is a name in the wrong place. -/
theorem stray_word (name : String) (identifier : IsIdentifier name) (first : Nat) :
    Stray first name.toList where
  head := (written_word identifier.1 (readWord_of_isIdentifier identifier) rfl first).head
  lexed := by
    intro rest tokens delimits lexed follow
    have word : Lexer.Reads first name.toList [readWord name.toList] rest :=
      Lexer.reads_word identifier.1 delimits.word
    rw [readWord_of_isIdentifier identifier] at word
    obtain ⟨more, rfl, -⟩ := lexed.after word
    exact nomatch follow [] name more rfl

/-- A number that is not finite is written as a word. A minus sign in front of it is no lexeme. -/
theorem stray_float {x : Binary64} (h : x.isFinite = false) (first : Nat) :
    Stray first (Value.float x).renderLiteral.toList := by
  cases x with
  | nan => exact stray_word "NaN" ⟨by decide, by decide, by decide, by decide⟩ first
  | infinite negative =>
      cases negative with
      | false => exact stray_word "inf" ⟨by decide, by decide, by decide, by decide⟩ first
      | true =>
          refine ⟨by decide, fun rest tokens _ lexed => ?_⟩
          change Lexer.LexesTo first ('-' :: 'i' :: 'n' :: 'f' :: rest) tokens at lexed
          obtain ⟨token, more, rfl⟩ :=
            List.exists_cons_of_ne_nil (lexed.tokens_ne_nil (by decide))
          exact absurd rfl (lexed.start_ne_none (by decide))
  | finite negative units magnitude => cases h

namespace Stray

variable {first used : Nat} {text text' : List Char} {tokens : List Token}

theorem parens (h : Stray first text) : Stray first ('(' :: (text ++ [')'])) where
  head := rfl
  lexed := by
    intro rest tokens _ lexed follow
    rw [List.cons_append, List.append_assoc] at lexed
    obtain ⟨more, rfl, inside⟩ := lexed.openParen
    exact h.lexed _ more (delimits_cons rest (by decide)) inside (follow.tail Token.noConfusion)

theorem not (h : Stray first text) : Stray first ('!' :: text) where
  head := rfl
  lexed := by
    intro rest tokens delimits lexed follow
    have alone : ∀ c ∈ (text ++ rest).head?, Shape.pairMark? '!' c = none := by
      intro c hc
      have other : c ≠ '=' := by
        have head := head_append h.head rest
        rw [Option.mem_def.mp hc] at head
        simpa using head
      unfold Shape.pairMark?
      split <;> simp_all
    have bang : Lexer.Reads first ['!'] [.bang] (text ++ rest) :=
      Lexer.reads_mark rfl (by decide) (by decide) alone
    rw [List.cons_append, ← List.singleton_append] at lexed
    obtain ⟨more, rfl, inside⟩ := lexed.after bang
    exact h.lexed rest more delimits inside (follow.tail Token.noConfusion)

/-- An operator behind the text does not help. -/
theorem ahead (h : Stray first text) (behind : List Char) : Stray first (text ++ ' ' :: behind) where
  head := head_append h.head _
  lexed := by
    intro rest tokens _ lexed
    rw [List.append_assoc] at lexed
    exact h.lexed _ tokens (delimits_cons _ (by decide)) lexed

/-- Neither does an operator in front of it that stands behind an operand. -/
theorem behind (h : Stray (first + used) text') (hleft : Written first text used tokens)
    {symbol : List Char} {token : Token} (plain : token.positionalCount = 0) (other : token ≠ .dot)
    (sign : ∀ rest, Lexer.Reads (first + used) symbol [token] (' ' :: rest)) :
    Stray first (text ++ ' ' :: (symbol ++ ' ' :: text')) where
  head := head_append hleft.head _
  lexed := by
    intro rest tokens delimits lexed follow
    rw [List.append_assoc] at lexed
    obtain ⟨_, rfl, joined⟩ := lexed.after (hleft.reads _ (delimits_cons _ (by decide)))
    rw [hleft.count, List.cons_append, List.append_assoc] at joined
    obtain ⟨more, rfl, inside⟩ := (joined.blank (by decide)).after (sign _)
    have count : positionals [token] = 0 := by simpa [positionals] using plain
    rw [count] at inside
    exact h.lexed rest more delimits (inside.blank (by decide)) (follow.behind other)

/-- Nor does it help that the condition is tested on elements. -/
theorem test (h : Stray first text') (hpath : Written first text 0 tokens) :
    Stray first (text ++ '[' :: '*' :: ']' :: '[' :: '?' :: '(' :: (text' ++ [')', ']'])) where
  head := head_append hpath.head _
  lexed := by
    intro rest tokens _ lexed follow
    rw [List.append_assoc] at lexed
    obtain ⟨_, rfl, tested⟩ := lexed.after (hpath.reads _ (delimits_cons _ (by decide)))
    rw [hpath.count] at tested
    obtain ⟨more, rfl, inside⟩ := tested.testMarks
    change Lexer.LexesTo (first + 0) ((text' ++ [')', ']']) ++ rest) more at inside
    rw [List.append_assoc] at inside
    refine h.lexed _ more (delimits_cons _ (by decide)) inside ?_
    have split : tokens ++ (anyElement ++ .openBracket :: .question :: .openParen :: more) =
        (tokens ++ anyElement ++ [.openBracket, .question]) ++ .openParen :: more := by simp
    exact NamesFollow.behind (split ▸ follow) Token.noConfusion

end Stray

/-! ## Conditions of templates -/

namespace Node

/-- The tree has no binary numbers but finite ones. -/
def IsFinite (tree : Node) : Prop := ∀ x, .literal (.float x) ∈ tree.slots → x.isFinite = true

theorem isFinite_between {left right : Node} {op : Operator} :
    (between left op right).IsFinite ↔ left.IsFinite ∧ right.IsFinite := by
  simp only [IsFinite, between, slots, List.mem_append, or_imp, forall_and]

end Node

theorem Stray.operandText {first : Nat} {tree : Node} (h : Stray first tree.render.toList) :
    Stray first tree.operandText := by
  cases grouped : tree.needsGrouping with
  | false =>
      rw [Node.operandText_of_plain grouped]
      exact h
  | true =>
      rw [Node.operandText_of_grouped grouped]
      exact h.parens

/-- The text of an expressible tree as an operand is read as tokens. -/
theorem Expressible.written {place : Place} {inTest : Bool} {tree : Node}
    (h : Expressible place inTest tree) {first : Nat} (numbered : tree.NumberedFrom first) :
    ∃ tokens, Written first tree.operandText tree.positions.length tokens := by
  cases place with
  | operand =>
      obtain ⟨d, -, written⟩ := h.spelled first numbered
      rw [Node.operandText_of_plain h.needsGrouping]
      exact ⟨d.tokens, written⟩
  | condition =>
      obtain ⟨-, d, -, written⟩ := h.spelled first numbered
      exact ⟨d.tokens, written⟩

/-- The tree can be expressed at its place if its numbers are finite, and else its text has a stray
name. -/
structure Reprints (place : Place) (inTest : Bool) (tree : Node) : Prop where
  expressible : tree.IsFinite → Expressible place inTest tree
  stray : ¬tree.IsFinite → ∀ first, tree.NumberedFrom first → Stray first tree.render.toList

namespace Reprints

variable {place : Place} {inTest : Bool} {left right condition : Node}

/-- An operator between two trees. -/
theorem between {op : Operator} {token : Token} (hleft : Reprints place inTest left)
    (hright : Reprints place inTest right)
    (whole : Expressible place inTest left → Expressible place inTest right →
      Expressible .condition inTest (.between left op right))
    (plain : token.positionalCount = 0) (other : token ≠ .dot)
    (sign : ∀ count rest, Lexer.Reads count op.symbol.toList [token] (' ' :: rest)) :
    Reprints .condition inTest (.between left op right) where
  expressible finite := by
    obtain ⟨finiteLeft, finiteRight⟩ := Node.isFinite_between.mp finite
    exact whole (hleft.expressible finiteLeft) (hright.expressible finiteRight)
  stray infinite first numbered := by
    obtain ⟨numberedLeft, numberedRight⟩ := range'_append_iff numbered
    rw [Node.toList_render_between]
    by_cases finite : left.IsFinite
    · have beyond : ¬right.IsFinite := fun h => infinite (Node.isFinite_between.mpr ⟨finite, h⟩)
      obtain ⟨tokens, written⟩ := (hleft.expressible finite).written numberedLeft
      exact (hright.stray beyond _ numberedRight).operandText.behind written plain other (sign _)
    · exact (hleft.stray finite first numberedLeft).operandText.ahead _

theorem single (h : Reprints .operand inTest left) : Reprints .condition inTest left where
  expressible finite := .single (h.expressible finite)
  stray := h.stray

theorem not (h : Reprints .condition inTest condition) :
    Reprints .condition inTest (.not condition) where
  expressible finite := .not (h.expressible finite)
  stray infinite first numbered := by
    have text : (Node.not condition).render.toList = '!' :: condition.operandText := by
      rw [← Node.operandText_of_plain rfl, Node.not, Node.operandText_before]
      rfl
    rw [text]
    exact (h.stray infinite first numbered).operandText.not

/-- A null test of an operand. -/
theorem after {op : Operator} (h : Reprints .operand inTest left)
    (whole : Expressible .operand inTest left → Expressible .condition inTest (.after left op)) :
    Reprints .condition inTest (.after left op) where
  expressible finite := whole (h.expressible finite)
  stray infinite first numbered := by
    obtain ⟨rest, symbol⟩ : ∃ rest, (Node.afterSymbol op).toList = ' ' :: rest := by
      cases op <;> exact ⟨_, rfl⟩
    rw [Node.toList_render_after, symbol]
    exact (h.stray infinite first numbered).operandText.ahead rest

/-- A comparison, or the null test that it means. -/
theorem compare (sign : Sign) (hleft : Reprints .operand inTest left)
    (hright : Reprints .operand inTest right) (withNull : Bool)
    (usual : withNull = false → right ≠ .literal .null) :
    Reprints .condition inTest (sign.compare left withNull right) := by
  have reads (count : Nat) (rest : List Char) := reads_sign sign count rest
  have plain : sign.token.positionalCount = 0 := by cases sign <;> rfl
  have other : sign.token ≠ .dot := by cases sign <;> exact Token.noConfusion
  unfold Sign.compare
  split
  · exact hleft.after .isNull
  · exact hleft.after .isNotNull
  · rename_i notEqual notDifferent
    refine hleft.between hright (fun expressible expressible' => ?_) plain other reads
    refine .comparison sign expressible expressible' fun equality => usual ?_
    rcases equality with rfl | rfl
    · exact Bool.eq_false_of_not_eq_true fun null => notEqual rfl null
    · exact Bool.eq_false_of_not_eq_true fun null => notDifferent rfl null

theorem and (hleft : Reprints .condition inTest left) (hright : Reprints .condition inTest right) :
    Reprints .condition inTest (.between left .and right) :=
  hleft.between hright .and (by rfl) (by exact Token.noConfusion) reads_and

theorem or (hleft : Reprints .condition inTest left) (hright : Reprints .condition inTest right) :
    Reprints .condition inTest (.between left .or right) :=
  hleft.between hright .or (by rfl) (by exact Token.noConfusion) reads_or

/-- Conditions that are joined from the left. -/
theorem foldl {op : Operator} {first : Node} {rest : List Node}
    (step : ∀ {left right : Node}, Reprints .condition inTest left →
      Reprints .condition inTest right → Reprints .condition inTest (.between left op right))
    (h : Reprints .condition inTest first) (others : ∀ node ∈ rest, Reprints .condition inTest node) :
    Reprints .condition inTest (rest.foldl (Node.between · op ·) first) := by
  induction rest generalizing first with
  | nil => exact h
  | cons next rest ih =>
      obtain ⟨hnext, behind⟩ := List.forall_mem_cons.mp others
      exact ih (step h hnext) behind

/-- A collection test behind the path of its collection. -/
theorem collection (anchor : Anchor) {path : List String} (named : path ≠ [])
    (identifiers : ∀ name ∈ path, IsIdentifier name) (h : Reprints .condition true condition) :
    Reprints .operand inTest (.collection (path.foldl .object (anchor.root inTest)) condition) := by
  obtain ⟨front, last, rfl⟩ := List.eq_nil_or_concat path |>.resolve_left named
  rw [List.concat_eq_append] at identifiers ⊢
  obtain ⟨inside, identifier⟩ := List.forall_mem_append.mp identifiers
  have scope : IsScopePath inTest (front.foldl .object (anchor.root inTest)) :=
    (anchor.isScopePath inTest).foldl inside
  rw [List.foldl_append, List.foldl_cons, List.foldl_nil]
  refine ⟨fun finite => .collection scope (identifier last (by simp)) (h.expressible finite), ?_⟩
  intro infinite first numbered
  obtain ⟨anchor', names, identifiers', -, text⟩ := exists_named scope (identifier last (by simp))
  have render : (Node.collection (.object (front.foldl .object (anchor.root inTest)) last)
      condition).render.toList = (anchor'.symbol :: pathText (names ++ [last])) ++
        '[' :: '*' :: ']' :: '[' :: '?' :: '(' :: (condition.render.toList ++ [')', ']']) := by
    rw [← text]
    simp [Node.render]
  have positions : (Node.collection (.object (front.foldl .object (anchor.root inTest)) last)
      condition).positions = condition.positions := by
    show (front.foldl Node.object (anchor.root inTest)).positions ++ condition.positions = _
    rw [scope.positions, List.nil_append]
  rw [Node.NumberedFrom, positions] at numbered
  rw [render]
  exact (h.stray infinite first numbered).test (written_anchor anchor' identifiers' first)

end Reprints

/-! ## Derivations -/

/-- A token that templates have a spelling for: its names are names. Numbers need not be finite. -/
def Token.IsSpelled : Token → Prop
  | identifier name => IsIdentifier name
  | placeholder ⟨.name name, _⟩ => isName name.toList = true
  | _ => True

theorem Grammar.Atom.reprints (a : Atom) (inTest : Bool) (spelled : a.token.IsSpelled) :
    Reprints .operand inTest a.node := by
  have usual (h : a.HasSpelling) (finite : a.node.IsFinite) : Reprints .operand inTest a.node :=
    ⟨fun _ => .atom a h, fun infinite => absurd finite infinite⟩
  cases a with
  | float x =>
      cases finite : x.isFinite with
      | true =>
          refine usual finite fun y hy => ?_
          obtain rfl : y = x := by simpa [Atom.node, Node.literal, Node.slots] using hy
          exact finite
      | false =>
          refine ⟨fun all => ?_, fun _ first _ => stray_float finite first⟩
          have := all x (by simp [Atom.node, Node.literal, Node.slots])
          rw [finite] at this
          cases this
  | placeholder p =>
      refine usual ?_ (by simp [Node.IsFinite, Atom.node, Node.placeholder, Node.slots])
      obtain ⟨key, kind⟩ := p
      cases key with
      | position index => trivial
      | name name => exact spelled
  | _ => exact usual trivial (by simp [Node.IsFinite, Atom.node, Node.literal, Node.slots])

/-- All conditions that a derivation means can be printed, as far as their numbers are finite. -/
def Grammar.Meaning.Reprints (inTest : Bool) : {c : Category} → Meaning c → Prop
  | .orRest, (nodes : List Node) | .andRest, (nodes : List Node) =>
    ∀ node ∈ nodes, DataFilter.Reprints .condition inTest node
  | .operand, (node : Node) => DataFilter.Reprints .operand inTest node
  | .template, (node : Node) | .filter, (node : Node) | .or, (node : Node) | .and, (node : Node)
  | .unary, (node : Node) | .comparison, (node : Node) => DataFilter.Reprints .condition inTest node

theorem Grammar.Derivation.ne_null {inTest : Bool} {d : Derivation .operand}
    (h : d.isNull = false) : d.tree inTest ≠ .literal .null := by
  intro null
  cases d with
  | atom a =>
      cases a with
      | null => cases h
      | _ => cases null
  | field => cases null
  | test => cases null

theorem Grammar.Derivation.reprints {c : Category} (d : Derivation c) (inTest : Bool)
    (spelled : ∀ token ∈ d.tokens, token.IsSpelled) : Meaning.Reprints inTest (d.tree inTest) := by
  have identifiers {path : List String} (h : ∀ token ∈ pathTokens path, token.IsSpelled) :
      ∀ name ∈ path, IsIdentifier name :=
    fun name hname => h (.identifier name) (List.mem_flatMap.mpr ⟨name, hname, by simp⟩)
  -- `spelled` splits as the tokens do, and `inTest` changes inside of brackets behind a path
  induction d generalizing inTest with
  | whole filter ih => exact ih inTest (List.forall_mem_cons.mp spelled).2
  | elements path named filter ih =>
      obtain ⟨front, inner⟩ := List.forall_mem_append.mp spelled
      obtain ⟨behind, -⟩ := List.forall_mem_append.mp front
      have path := identifiers (List.forall_mem_cons.mp behind).2
      exact (Reprints.collection .document named path (ih true inner)).single
  | bracketed condition ih =>
      obtain ⟨-, behind⟩ := List.forall_mem_cons.mp spelled
      obtain ⟨inner, -⟩ := List.forall_mem_append.mp (List.forall_mem_cons.mp behind).2
      exact ih inTest inner
  | or first rest ihFirst ihRest =>
      obtain ⟨front, back⟩ := List.forall_mem_append.mp spelled
      exact Reprints.foldl .or (ihFirst inTest front) (ihRest inTest back)
  | orEnd => exact nofun
  | orMore next rest ihNext ihRest =>
      obtain ⟨front, back⟩ := List.forall_mem_append.mp (List.forall_mem_cons.mp spelled).2
      exact List.forall_mem_cons.mpr ⟨ihNext inTest front, ihRest inTest back⟩
  | and first rest ihFirst ihRest =>
      obtain ⟨front, back⟩ := List.forall_mem_append.mp spelled
      exact Reprints.foldl .and (ihFirst inTest front) (ihRest inTest back)
  | andEnd => exact nofun
  | andMore next rest ihNext ihRest =>
      obtain ⟨front, back⟩ := List.forall_mem_append.mp (List.forall_mem_cons.mp spelled).2
      exact List.forall_mem_cons.mpr ⟨ihNext inTest front, ihRest inTest back⟩
  | not operand ih => exact (ih inTest (List.forall_mem_cons.mp spelled).2).not
  | group condition ih =>
      obtain ⟨inner, -⟩ := List.forall_mem_append.mp (List.forall_mem_cons.mp spelled).2
      exact ih inTest inner
  | plain comparison ih => exact ih inTest spelled
  | single operand ih => exact (ih inTest spelled).single
  | pair left sign right ihLeft ihRight =>
      obtain ⟨front, behind⟩ := List.forall_mem_append.mp spelled
      have back := (List.forall_mem_cons.mp behind).2
      exact (ihLeft inTest front).compare sign (ihRight inTest back) _ Derivation.ne_null
  | atom a => exact a.reprints inTest (spelled _ List.mem_cons_self)
  | field anchor path named =>
      have names := identifiers (List.forall_mem_cons.mp spelled).2
      have scope : IsScopePath inTest (path.dropLast.foldl .object (anchor.root inTest)) :=
        (anchor.isScopePath inTest).foldl fun name hname => names name (List.dropLast_subset _ hname)
      exact ⟨fun _ => .field scope (names _ (List.getLast_mem named)), fun infinite =>
        absurd (fun x hx => nomatch hx) infinite⟩
  | test anchor path named filter ih =>
      obtain ⟨front, inner⟩ := List.forall_mem_append.mp spelled
      obtain ⟨behind, -⟩ := List.forall_mem_append.mp front
      have path := identifiers (List.forall_mem_cons.mp behind).2
      exact .collection anchor named path (ih true inner)

end DataFilter
