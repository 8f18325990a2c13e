import DataFilter.Proofs.Node.Binding
import DataFilter.Proofs.Template.Acceptance
import DataFilter.Proofs.Template.Expressible

/-!
# Trees of templates are grounded

A tree that was read from a template has all its references grounded: they are chains of identifiers
behind `$`, or behind `@` inside of a collection test, and no scope stands where a value should. The
names are those of the tokens, and the lexer makes an identifier of nothing but a name. Binding
changes none of this.
-/

namespace DataFilter

/-! ## Shapes and the tokens that they are read as -/

/-- What is read as an identifier is none of the three literals. -/
theorem isIdentifier_of_readWord {text : List Char} {name : String} (h : isName text = true)
    (read : readWord text = .identifier name) : IsIdentifier name := by
  unfold readWord at read
  split at read
  · cases read
  · cases read
  · cases read
  · rename_i notTrue notFalse notNull
    have same : String.ofList text = name := Token.identifier.inj read
    subst same
    refine ⟨by rwa [String.toList_ofList], ?_, ?_, ?_⟩
    · exact fun heq => notTrue heq
    · exact fun heq => notFalse heq
    · exact fun heq => notNull heq

namespace Shape

theorem isSome_symbol?_of_pairMark? {c d : Char} {token : Token} (h : pairMark? c d = some token) :
    token.symbol?.isSome := by
  unfold pairMark? at h
  split at h <;> cases h <;> rfl

theorem isSome_symbol?_of_singleMark? {c : Char} {token : Token} (h : singleMark? c = some token) :
    token.symbol?.isSome := by
  unfold singleMark? at h
  split at h <;> cases h <;> rfl

/-- A mark has only one spelling. -/
theorem isSome_symbol?_of_mark? {c : Char} {rest : List Char} {shape : Shape} {more : Nat}
    (h : mark? c rest = some (shape, more)) :
    ∃ token, shape = mark token ∧ token.symbol?.isSome := by
  unfold mark? at h
  split at h
  · rename_i token pair
    cases h
    obtain ⟨d, -, pair⟩ := Option.bind_eq_some_iff.mp pair
    exact ⟨token, rfl, isSome_symbol?_of_pairMark? pair⟩
  · obtain ⟨token, single, ⟨⟩⟩ := Option.map_eq_some_iff.mp h
    exact ⟨token, rfl, isSome_symbol?_of_singleMark? single⟩

/-- How a lexeme of each shape begins, and how long it is. -/
inductive Starts (c : Char) (rest : List Char) : Shape → Nat → Prop where
  | mark {shape : Shape} {n : Nat} (found : mark? c rest = some (shape, n)) : Starts c rest shape n
  | number (digit : c.isDigit = true) : Starts c rest number (numberLength rest)
  | negative (minus : c = '-') (digit : rest.head?.any Char.isDigit = true) :
      Starts c rest number (numberLength rest)
  | quoted {n : Nat} (quote : c = '"' ∨ c = '\'') (closed : quotedLength? c rest = some n) :
      Starts c rest quoted n
  | placeholder {n : Nat} (percent : c = '%') (found : placeholderLength? rest = some n) :
      Starts c rest placeholder n
  | word (start : isNameStart c = true) : Starts c rest word (run isNameChar rest)

theorem starts_of_start? {c : Char} {rest : List Char} {shape : Shape} {n : Nat}
    (h : start? c rest = some (shape, n)) : Starts c rest shape n := by
  unfold start? at h
  -- in their order: marks, numbers with and without a sign, strings, placeholders, words
  split at h
  · rename_i found marked
    cases h
    exact .mark marked
  · split at h
    · cases h
      exact .number ‹_›
    · split at h
      · split at h
        · cases h
          exact .negative ‹_› ‹_›
        · cases h
      · split at h
        · rename_i quote
          obtain ⟨length, closed, ⟨⟩⟩ := Option.map_eq_some_iff.mp h
          exact .quoted (by simpa using quote) closed
        · split at h
          · obtain ⟨length, found, ⟨⟩⟩ := Option.map_eq_some_iff.mp h
            exact .placeholder ‹_› found
          · split at h
            · cases h
              exact .word ‹_›
            · cases h

/-- A mark has only one spelling, and what begins like a word is one up to its end. -/
theorem start?_spelling {c : Char} {rest : List Char} {shape : Shape} {more : Nat}
    (h : start? c rest = some (shape, more)) :
    (∀ token, shape = mark token → token.symbol?.isSome) ∧
      (shape = word → isNameStart c = true ∧ more = run isNameChar rest) := by
  cases starts_of_start? h with
  | mark found =>
      obtain ⟨token, rfl, single⟩ := isSome_symbol?_of_mark? found
      refine ⟨?_, nofun⟩
      rintro _ ⟨⟩
      exact single
  | word start => exact ⟨fun _ same => (nomatch same), fun _ => ⟨start, rfl⟩⟩
  | _ => exact ⟨fun _ same => (nomatch same), fun same => (nomatch same)⟩

/-- Lexemes of a shape are read as such tokens. -/
inductive Gives : Shape → Token → Prop where
  | mark (token : Token) : Gives (mark token) token
  | integer (n : Integer) : Gives number (.integer n)
  | float (x : Binary64) : Gives number (.float x)
  | text (s : String) : Gives quoted (.text s)
  | placeholder (p : Placeholder) : Gives placeholder (.placeholder p)
  | boolean (b : Bool) : Gives word (.boolean b)
  | null : Gives word .null
  | identifier (name : String) : Gives word (.identifier name)

theorem gives_of_read {shape : Shape} {text : List Char} {index : Nat} {token : Token}
    (h : shape.read text index = .ok token) : shape.Gives token := by
  cases shape with
  | mark found =>
      obtain rfl : found = token := Except.ok.inj h
      exact .mark found
  | number =>
      simp only [Shape.read, readNumber] at h
      repeat' split at h
      all_goals cases h <;> constructor
  | quoted =>
      simp only [Shape.read, readQuoted] at h
      cases content : resolveEscapes (text.drop 1).dropLast <;> rw [content] at h <;> cases h
      exact .text _
  | placeholder =>
      simp only [Shape.read, readPlaceholder] at h
      repeat' split at h
      all_goals cases h <;> constructor
  | word =>
      obtain rfl : readWord text = token := Except.ok.inj h
      unfold readWord
      split <;> constructor

/-- Only words are read as identifiers. -/
theorem read_eq_identifier {shape : Shape} {text : List Char} {index : Nat} {name : String}
    (h : shape.read text index = .ok (.identifier name)) :
    shape = mark (.identifier name) ∨ shape = word ∧ readWord text = .identifier name := by
  cases gives_of_read h with
  | mark => exact .inl rfl
  | identifier => exact .inr ⟨rfl, Except.ok.inj h⟩

/-- A lexeme that is read as an identifier is one. -/
theorem isIdentifier_of_read {c : Char} {rest : List Char} {shape : Shape} {more index : Nat}
    {name : String} (h : start? c rest = some (shape, more))
    (read : shape.read (c :: rest.take more) index = .ok (.identifier name)) :
    IsIdentifier name := by
  obtain ⟨single, isWord⟩ := start?_spelling h
  rcases read_eq_identifier read with rfl | ⟨rfl, spelled⟩
  · exact absurd (single _ rfl) Bool.false_ne_true
  · obtain ⟨start, rfl⟩ := isWord rfl
    refine isIdentifier_of_readWord ?_ spelled
    have body : rest.take (run isNameChar rest) = rest.takeWhile isNameChar :=
      List.prefix_iff_eq_take.mp (List.takeWhile_prefix _) |>.symm
    rw [body, isName, start, Bool.true_and]
    exact List.all_takeWhile

end Shape

namespace Lexer

theorem isIdentifier_of_next {l after : Lexer} {lexeme : Lexeme} {name : String}
    (h : l.next = (.ok lexeme, after)) (hname : lexeme.token = .identifier name) :
    IsIdentifier name := by
  unfold next take at h
  split at h
  -- at the end there is a token of its own, and what is no shape is refused
  · cases h
    cases hname
  · split at h
    · cases h
    · rename_i shape more found
      dsimp only at h
      split at h
      · cases h
      · rename_i token read
        cases h
        have same : token = .identifier name := hname
        rw [same] at read
        exact Shape.isIdentifier_of_read found read

theorem isIdentifier_of_upToEnd {count : Nat} {l : Lexer} {lexemes : List Lexeme}
    (h : l.upToEnd count = .ok lexemes) {name : String}
    (hmem : .identifier name ∈ lexemes.map Lexeme.token) : IsIdentifier name := by
  -- a token is that of the first lexeme, or of the lexemes that are read behind it
  induction lexemes generalizing count l with
  | nil => cases hmem
  | cons lexeme more ih =>
      obtain ⟨_, after, _, hnext, ⟨⟩, behind⟩ := upToEnd_eq_ok h
      rcases List.mem_cons.mp hmem with first | others
      · exact isIdentifier_of_next hnext first.symm
      · rcases behind with rfl | ⟨bound, hrun⟩
        · cases others
        · exact ih hrun others

end Lexer

/-- A name in a template is an identifier. -/
def Token.IsNamed : Token → Prop
  | identifier name => IsIdentifier name
  | _ => True

theorem isNamed_of_tokenize {input : String} {lexemes : List Lexeme}
    (h : tokenize input = .ok lexemes) : ∀ token ∈ lexemes.map Lexeme.token, token.IsNamed := by
  intro token hmem
  cases token with
  | identifier name => exact Lexer.isIdentifier_of_upToEnd h hmem
  | _ => trivial

/-! ## Grounded trees -/

namespace Node

/-- Every reference of the tree is a chain of identifiers, and no scope stands in the place of a
value. The element under test is referred to inside of a test only. -/
def IsGrounded : Bool → Node → Prop
  | _, value _ => True
  | _, globalScope | _, item | _, object _ _ => False
  | inTest, field scope name => IsScopePath inTest scope ∧ IsIdentifier name
  | inTest, collection parent predicate =>
    IsScopePath inTest parent ∧ parent.isRoot = false ∧ predicate.IsGrounded true
  | inTest, prefixed _ operand _ => operand.IsGrounded inTest
  | inTest, infixed left _ right _ => left.IsGrounded inTest ∧ right.IsGrounded inTest
  | inTest, postfixed operand _ _ => operand.IsGrounded inTest

/-- Conditions that are joined are grounded if each of them is. -/
theorem isGrounded_foldl {inTest : Bool} {op : Operator} {first : Node} {rest : List Node}
    (h : first.IsGrounded inTest) (others : ∀ node ∈ rest, node.IsGrounded inTest) :
    (rest.foldl (between · op ·) first).IsGrounded inTest := by
  induction rest generalizing first with
  | nil => exact h
  | cons next rest ih =>
      obtain ⟨hnext, behind⟩ := List.forall_mem_cons.mp others
      exact ih ⟨h, hnext⟩ behind

end Node

/-- A chain goes on with identifiers. -/
theorem IsScopePath.foldl {inTest : Bool} {scope : Node} {path : List String}
    (h : IsScopePath inTest scope) (named : ∀ name ∈ path, IsIdentifier name) :
    IsScopePath inTest (path.foldl .object scope) := by
  induction path generalizing scope with
  | nil => exact h
  | cons name path ih =>
      obtain ⟨first, others⟩ := List.forall_mem_cons.mp named
      exact ih (.object h first) others

theorem isRoot_foldl {scope : Node} {path : List String} (named : path ≠ []) :
    (path.foldl .object scope).isRoot = false := by
  obtain ⟨front, last, rfl⟩ := List.eq_nil_or_concat path |>.resolve_left named
  rw [List.concat_eq_append, List.foldl_append]
  rfl

namespace Grammar

theorem Anchor.isScopePath (anchor : Anchor) (inTest : Bool) :
    IsScopePath inTest (anchor.root inTest) := by
  cases anchor with
  | document => exact .document
  | here =>
      cases inTest with
      | false => exact .document
      | true => exact .element rfl

/-- The names of a path are those of its tokens. -/
theorem forall_mem_pathTokens {path : List String}
    (named : ∀ token ∈ pathTokens path, token.IsNamed) : ∀ name ∈ path, IsIdentifier name :=
  fun name hname => named (.identifier name) (List.mem_flatMap.mpr ⟨name, hname, by simp⟩)

theorem Sign.isGrounded_compare {inTest : Bool} {left right : Node} (sign : Sign) (withNull : Bool)
    (hleft : left.IsGrounded inTest) (hright : right.IsGrounded inTest) :
    (sign.compare left withNull right).IsGrounded inTest := by
  unfold Sign.compare
  split
  · exact hleft
  · exact hleft
  · exact ⟨hleft, hright⟩

theorem Atom.isGrounded (a : Atom) (inTest : Bool) : a.node.IsGrounded inTest := by
  cases a <;> trivial

/-- All conditions that a derivation means are grounded. -/
def Meaning.IsGrounded (inTest : Bool) : {c : Category} → Meaning c → Prop
  | .orRest, (nodes : List Node) | .andRest, (nodes : List Node) =>
    ∀ node ∈ nodes, node.IsGrounded inTest
  | .template, (node : Node) | .filter, (node : Node) | .or, (node : Node) | .and, (node : Node)
  | .unary, (node : Node) | .comparison, (node : Node) | .operand, (node : Node) =>
    node.IsGrounded inTest

/-- A derivation whose names are identifiers means grounded conditions. -/
theorem Derivation.isGrounded {c : Category} (d : Derivation c) (inTest : Bool)
    (named : ∀ token ∈ d.tokens, token.IsNamed) : Meaning.IsGrounded inTest (d.tree inTest) := by
  -- `named` splits as the tokens do, and `inTest` changes inside of brackets behind a path
  induction d generalizing inTest with
  | whole filter ih => exact ih inTest (List.forall_mem_cons.mp named).2
  | elements path nonempty filter ih =>
      obtain ⟨front, inner⟩ := List.forall_mem_append.mp named
      obtain ⟨behind, -⟩ := List.forall_mem_append.mp front
      have path := forall_mem_pathTokens (List.forall_mem_cons.mp behind).2
      exact ⟨.foldl .document path, isRoot_foldl nonempty, ih true inner⟩
  | bracketed condition ih =>
      obtain ⟨-, behind⟩ := List.forall_mem_cons.mp named
      obtain ⟨inner, -⟩ := List.forall_mem_append.mp (List.forall_mem_cons.mp behind).2
      exact ih inTest inner
  | or first rest ihFirst ihRest =>
      obtain ⟨front, back⟩ := List.forall_mem_append.mp named
      exact Node.isGrounded_foldl (ihFirst inTest front) (ihRest inTest back)
  | orEnd => exact nofun
  | orMore next rest ihNext ihRest =>
      obtain ⟨front, back⟩ := List.forall_mem_append.mp (List.forall_mem_cons.mp named).2
      exact List.forall_mem_cons.mpr ⟨ihNext inTest front, ihRest inTest back⟩
  | and first rest ihFirst ihRest =>
      obtain ⟨front, back⟩ := List.forall_mem_append.mp named
      exact Node.isGrounded_foldl (ihFirst inTest front) (ihRest inTest back)
  | andEnd => exact nofun
  | andMore next rest ihNext ihRest =>
      obtain ⟨front, back⟩ := List.forall_mem_append.mp (List.forall_mem_cons.mp named).2
      exact List.forall_mem_cons.mpr ⟨ihNext inTest front, ihRest inTest back⟩
  | not operand ih => exact ih inTest (List.forall_mem_cons.mp named).2
  | group condition ih =>
      obtain ⟨inner, -⟩ := List.forall_mem_append.mp (List.forall_mem_cons.mp named).2
      exact ih inTest inner
  | plain comparison ih => exact ih inTest named
  | single operand ih => exact ih inTest named
  | pair left sign right ihLeft ihRight =>
      obtain ⟨front, behind⟩ := List.forall_mem_append.mp named
      have back := (List.forall_mem_cons.mp behind).2
      exact sign.isGrounded_compare _ (ihLeft inTest front) (ihRight inTest back)
  | atom a => exact a.isGrounded inTest
  | field anchor path nonempty =>
      have path := forall_mem_pathTokens (List.forall_mem_cons.mp named).2
      refine ⟨(anchor.isScopePath inTest).foldl fun name hname => ?_, ?_⟩
      · exact path name (List.dropLast_subset _ hname)
      · exact path _ (List.getLast_mem nonempty)
  | test anchor path nonempty filter ih =>
      obtain ⟨front, inner⟩ := List.forall_mem_append.mp named
      obtain ⟨behind, -⟩ := List.forall_mem_append.mp front
      have path := forall_mem_pathTokens (List.forall_mem_cons.mp behind).2
      exact ⟨(anchor.isScopePath inTest).foldl path, isRoot_foldl nonempty, ih true inner⟩

end Grammar

/-- The tree of a template is grounded. -/
theorem isGrounded_of_parse {template : String} {tree : Node} (h : Node.parse template = .ok tree) :
    tree.IsGrounded false := by
  obtain ⟨lexemes, tokenized, -⟩ := bind_eq_ok h
  obtain ⟨d, spells, rfl⟩ := (parse_eq_ok_iff tokenized).mp h
  refine d.isGrounded false fun token hmem => ?_
  apply isNamed_of_tokenize tokenized
  rw [show lexemes.map Lexeme.token = d.tokens ++ [.eof] from spells]
  exact List.mem_append_left _ hmem

/-! ## Binding grounded trees -/

namespace Node

theorem Fills.isScopePath {params : Parameters} {scope bound : Node} (h : Fills params scope bound)
    {inTest : Bool} (path : IsScopePath inTest scope) : IsScopePath inTest bound := by
  induction h with
  | object _ name ih =>
      cases path with
      | object inner identifier => exact .object (ih inner) identifier
  | globalScope => exact path
  | item => exact path
  | _ => cases path

/-- A tree stays grounded when it is bound. -/
theorem Fills.isGrounded {params : Parameters} {tree bound : Node} (h : Fills params tree bound)
    {inTest : Bool} (grounded : tree.IsGrounded inTest) : bound.IsGrounded inTest := by
  induction h generalizing inTest with
  | value => trivial
  | globalScope => exact grounded
  | item => exact grounded
  | object => exact grounded
  | field scope name _ => exact ⟨scope.isScopePath grounded.1, grounded.2⟩
  | collection parent _ _ ih =>
      obtain ⟨path, named, inner⟩ := grounded
      refine ⟨parent.isScopePath path, ?_, ih inner⟩
      cases parent with
      | globalScope => cases named
      | item => cases named
      | _ => rfl
  | prefixed op _ grouping ih => exact ih grounded
  | infixed _ op _ grouping ihl ihr => exact ⟨ihl grounded.1, ihr grounded.2⟩
  | postfixed _ op grouping ih => exact ih grounded

/-- No placeholder is left in a bound tree. -/
theorem Fills.hasPlaceholders {params : Parameters} {tree bound : Node}
    (h : Fills params tree bound) : bound.hasPlaceholders = false := by
  induction h with
  | object _ _ ih => exact ih
  | field _ _ ih => exact ih
  | collection _ _ ihs ihp => exact Bool.or_eq_false_iff.mpr ⟨ihs, ihp⟩
  | prefixed _ _ _ ih => exact ih
  | infixed _ _ _ _ ihl ihr => exact Bool.or_eq_false_iff.mpr ⟨ihl, ihr⟩
  | postfixed _ _ _ ih => exact ih
  | _ => rfl

end Node

end DataFilter
