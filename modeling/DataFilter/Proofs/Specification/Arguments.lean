import DataFilter.Proofs.Node.Filling
import DataFilter.Proofs.Sql.Independence
import DataFilter.Proofs.Template.Grounded

/-!
# Parameters arrive in the order of the text

The values of compiled SQL can be told from the tokens of the template alone. Four stages keep an
order of their own: the lexer numbers the placeholders that it reads, the parser puts operands into
a tree, binding fills them where they are, and compiling writes them down. Each of them goes from
left to right: the numbers count up along the tokens (`Token.Numbered`), the slots of the tree are
the operands among the tokens (`Derivation.operands_tokens`), and the values that are written are
those of the slots.
-/

namespace DataFilter

/-! ## What the text asks for -/

/-- The operand that a token is. -/
def Token.operand? : Token → Option Operand
  | integer n => some (.literal (.integer n))
  | float x => some (.literal (.float x))
  | text s => some (.literal (.text s))
  | boolean b => some (.literal (.boolean b))
  | null => some (.literal .null)
  | placeholder p => some (.placeholder p)
  | _ => none

/-- The operands among tokens, from left to right. A `null` right behind `==` or `!=` is none: the
sign takes it. -/
def Token.operands : List Token → List Operand
  | [] => []
  | .equalEqual :: .null :: rest => operands rest
  | .notEqual :: .null :: rest => operands rest
  | token :: rest => token.operand?.toList ++ operands rest

/-- What stands for operands, with `count` placeholders without a name in front of them. The number
that such a placeholder carries is not looked at: its parameter is told by where it stands. -/
def Parameters.arguments (params : Parameters) : Nat → List Operand → List (Option Value)
  | _, [] => []
  | count, .literal v :: rest => some v :: params.arguments count rest
  | count, .placeholder ⟨.position _, kind⟩ :: rest =>
    params.positional[count]?.bind kind.convert? :: params.arguments (count + 1) rest
  | count, .placeholder ⟨.name name, kind⟩ :: rest =>
    (params.named.get? name).bind kind.convert? :: params.arguments count rest

/-! ## Operands of tokens -/

namespace Token

theorem operands_cons {token : Token} (equal : token ≠ .equalEqual) (notEqual : token ≠ .notEqual)
    (rest : List Token) : operands (token :: rest) = token.operand?.toList ++ operands rest := by
  rw [operands]
  · rintro _ rfl
    exact absurd rfl equal
  · rintro _ rfl
    exact absurd rfl notEqual

/-- Tokens that neither are operands nor take any. -/
def IsSilent (token : Token) : Prop :=
  token.operand? = none ∧ token ≠ .equalEqual ∧ token ≠ .notEqual

theorem IsSilent.operands_cons {token : Token} (h : token.IsSilent) (rest : List Token) :
    operands (token :: rest) = operands rest := by
  obtain ⟨none, equal, notEqual⟩ := h
  rw [Token.operands_cons equal notEqual, none]
  rfl

theorem operands_append {front : List Token} (silent : ∀ token ∈ front, token.IsSilent)
    (rest : List Token) : operands (front ++ rest) = operands rest := by
  induction front with
  | nil => rfl
  | cons token front ih =>
      obtain ⟨first, others⟩ := List.forall_mem_cons.mp silent
      rw [List.cons_append, first.operands_cons, ih others]

end Token

namespace Grammar

open Token

theorem Anchor.isSilent (anchor : Anchor) : anchor.token.IsSilent := by
  cases anchor <;> exact ⟨rfl, nofun, nofun⟩

theorem isSilent_pathTokens (path : List String) : ∀ token ∈ pathTokens path, token.IsSilent := by
  intro token hmem
  obtain ⟨name, -, hmem⟩ := List.mem_flatMap.mp hmem
  rcases List.mem_pair.mp hmem with rfl | rfl <;> exact ⟨rfl, nofun, nofun⟩

/-- Nothing in front of a filter is an operand. -/
theorem operands_collection (anchor : Anchor) (path : List String) (rest : List Token) :
    operands (anchor.token :: pathTokens path ++ anyElement ++ rest) = operands rest := by
  rw [List.append_assoc, List.cons_append, anchor.isSilent.operands_cons,
    operands_append (isSilent_pathTokens path)]
  rfl

theorem Atom.operands_token (a : Atom) (rest : List Token) :
    operands (a.token :: rest) = a.node.slots ++ operands rest := by
  cases a <;> rfl

/-- Without a `null` behind it, a sign takes nothing. -/
theorem Sign.operands_token (sign : Sign) {rest : List Token}
    (not_null : ∀ token ∈ rest.head?, token ≠ .null) :
    operands (sign.token :: rest) = operands rest := by
  cases rest with
  | nil => cases sign <;> rfl
  | cons token rest =>
      cases token with
      | null => exact absurd rfl (not_null .null rfl)
      | _ => cases sign <;> rfl

theorem Sign.slots_compare (sign : Sign) (left right : Node) :
    (sign.compare left false right).slots = left.slots ++ right.slots := by
  cases sign <;> rfl

/-- With a `null` behind it, a sign takes it if it means a null test. -/
theorem Sign.operands_null (sign : Sign) (left : Node) (rest : List Token) :
    left.slots ++ operands (sign.token :: .null :: rest) =
      (sign.compare left true (.literal .null)).slots ++ operands rest := by
  cases sign with
  | equal => rfl
  | notEqual => rfl
  | _ => exact (List.append_assoc left.slots [.literal .null] (operands rest)).symm

/-! ## Slots of derivations -/

/-- Conditions that are joined have their slots one behind the other. -/
theorem slots_foldl (op : Operator) (first : Node) (rest : List Node) :
    (rest.foldl (Node.between · op ·) first).slots = first.slots ++ rest.flatMap Node.slots := by
  induction rest generalizing first with
  | nil => exact (List.append_nil _).symm
  | cons next rest ih =>
      rw [List.foldl_cons, ih, List.flatMap_cons, ← List.append_assoc]
      rfl

/-- The slots of all conditions that a derivation means. -/
def Meaning.slots : {c : Category} → Meaning c → List Operand
  | .orRest, (nodes : List Node) | .andRest, (nodes : List Node) => nodes.flatMap Node.slots
  | .template, (node : Node) | .filter, (node : Node) | .or, (node : Node) | .and, (node : Node)
  | .unary, (node : Node) | .comparison, (node : Node) | .operand, (node : Node) => node.slots

/-- The operands that a derivation spells are the slots of what it means, in their order. -/
theorem Derivation.operands_tokens {c : Category} (d : Derivation c) (inTest : Bool)
    (rest : List Token) :
    operands (d.tokens ++ rest) = Meaning.slots (d.tree inTest) ++ operands rest := by
  -- for any `rest`, since a part of the tokens is followed by the parts behind it
  induction d generalizing inTest rest with
  | whole filter ih => exact ih inTest rest
  | elements path named filter ih =>
      rw [tokens, List.append_assoc]
      exact (operands_collection .document path _).trans (ih true rest)
  | bracketed condition ih =>
      rw [tokens, List.append_assoc]
      exact ih inTest _
  | or first more ihFirst ihMore =>
      rw [tokens, List.append_assoc, ihFirst inTest, ihMore inTest, ← List.append_assoc]
      exact congrArg (· ++ operands rest) (slots_foldl _ _ _).symm
  | orEnd => rfl
  | orMore next more ihNext ihMore =>
      rw [tokens, List.append_assoc]
      show operands (next.tokens ++ (more.tokens ++ rest)) = _
      rw [ihNext inTest, ihMore inTest, ← List.append_assoc]
      rfl
  | and first more ihFirst ihMore =>
      rw [tokens, List.append_assoc, ihFirst inTest, ihMore inTest, ← List.append_assoc]
      exact congrArg (· ++ operands rest) (slots_foldl _ _ _).symm
  | andEnd => rfl
  | andMore next more ihNext ihMore =>
      rw [tokens, List.append_assoc]
      show operands (next.tokens ++ (more.tokens ++ rest)) = _
      rw [ihNext inTest, ihMore inTest, ← List.append_assoc]
      rfl
  | not operand ih => exact ih inTest rest
  | group condition ih =>
      rw [tokens, List.append_assoc]
      exact ih inTest _
  | plain comparison ih => exact ih inTest rest
  | single operand ih => exact ih inTest rest
  | pair left sign right ihLeft ihRight =>
      rw [tokens, List.append_assoc, ihLeft inTest, List.cons_append]
      -- what the sign takes is no operand, and the null test that it means has no slot for it
      cases hnull : right.isNull with
      | false =>
          rw [sign.operands_token (head_ne_null hnull rest), ihRight inTest, ← List.append_assoc,
            tree, hnull]
          exact congrArg (· ++ operands rest) (sign.slots_compare _ _).symm
      | true =>
          obtain rfl := eq_null hnull
          exact sign.operands_null _ rest
  | atom a => exact a.operands_token rest
  | field anchor path named =>
      rw [tokens, List.cons_append, anchor.isSilent.operands_cons,
        operands_append (isSilent_pathTokens path)]
      rfl
  | test anchor path named filter ih =>
      rw [tokens, List.append_assoc]
      exact (operands_collection anchor path _).trans (ih true rest)

end Grammar

/-! ## Numbers of placeholders -/

/-- The placeholder has this number, if it has any. -/
def Placeholder.HasNumber (p : Placeholder) (count : Nat) : Prop :=
  ∀ index, p.key = .position index → index = count

/-- The placeholders without a name are numbered from `count` on. -/
def Token.Numbered : Nat → List Token → Prop
  | _, [] => True
  | count, token :: rest =>
    (∀ p, token = .placeholder p → p.HasNumber count) ∧
      Numbered (count + token.positionalCount) rest

namespace Shape

/-- A placeholder is given the number that is next. -/
theorem hasNumber_of_readPlaceholder {text : List Char} {index : Nat} {p : Placeholder}
    (h : readPlaceholder text index = .ok (.placeholder p)) : p.HasNumber index := by
  unfold readPlaceholder at h
  split at h
  · cases h
  · split at h
    · cases h
      exact nofun
    · cases h
      rintro _ ⟨⟩
      rfl

/-- Only placeholders are read as placeholders. -/
theorem hasNumber_of_read {c : Char} {rest text : List Char} {shape : Shape} {more index : Nat}
    {p : Placeholder} (h : start? c rest = some (shape, more))
    (read : shape.read text index = .ok (.placeholder p)) : p.HasNumber index := by
  cases gives_of_read read with
  | mark => exact absurd ((start?_spelling h).1 _ rfl) Bool.false_ne_true
  | placeholder => exact hasNumber_of_readPlaceholder read

end Shape

namespace Lexer

/-- Reading a lexeme numbers it and counts it. -/
theorem numbered_of_next {l after : Lexer} {lexeme : Lexeme} (h : l.next = (.ok lexeme, after)) :
    (∀ p, lexeme.token = .placeholder p → p.HasNumber l.placeholders) ∧
      after.placeholders = l.placeholders + lexeme.token.positionalCount := by
  unfold next take at h
  split at h
  -- at the end there is a token of its own, and what is no shape is refused
  · cases h
    exact ⟨nofun, rfl⟩
  · split at h
    · cases h
    · rename_i shape more found
      dsimp only at h
      split at h
      · cases h
      · rename_i token read
        cases h
        refine ⟨?_, rfl⟩
        rintro p rfl
        exact Shape.hasNumber_of_read found read

theorem numbered_of_upToEnd {count : Nat} {l : Lexer} {lexemes : List Lexeme}
    (h : l.upToEnd count = .ok lexemes) :
    Token.Numbered l.placeholders (lexemes.map Lexeme.token) := by
  induction lexemes generalizing count l with
  | nil => trivial
  | cons lexeme more ih =>
      obtain ⟨_, after, _, hnext, ⟨⟩, behind⟩ := upToEnd_eq_ok h
      obtain ⟨number, counted⟩ := numbered_of_next hnext
      refine ⟨number, ?_⟩
      rcases behind with rfl | ⟨bound, hrun⟩
      · trivial
      · rw [← counted]
        exact ih hrun

end Lexer

/-! ## Values -/

namespace Parameters

theorem arguments_placeholder (params : Parameters) {count : Nat} {p : Placeholder}
    (number : p.HasNumber count) (rest : List Operand) :
    params.arguments count (.placeholder p :: rest) =
      (p.fill params).toOption ::
        params.arguments (count + (Token.placeholder p).positionalCount) rest := by
  rw [p.toOption_fill]
  obtain ⟨key, kind⟩ := p
  cases key with
  | position index =>
      obtain rfl := number index rfl
      rfl
  | name name => rfl

/-- Where placeholders are numbered in their order, each of them is filled by what stands for it. -/
theorem arguments_eq (params : Parameters) {count : Nat} {tokens : List Token}
    (numbered : Token.Numbered count tokens) :
    params.arguments count (Token.operands tokens) =
      (Token.operands tokens).map fun operand => (operand.fill params).toOption := by
  fun_induction Token.operands tokens generalizing count with
  | case1 => rfl
  | case2 rest ih => exact ih numbered.2.2
  | case3 rest ih => exact ih numbered.2.2
  | case4 token rest _ _ ih =>
      obtain ⟨number, others⟩ := numbered
      have behind := ih others
      cases token with
      | placeholder p =>
          exact (params.arguments_placeholder (number p rfl) _).trans (congrArg _ behind)
      | integer n => exact congrArg (some (.integer n) :: ·) behind
      | float x => exact congrArg (some (.float x) :: ·) behind
      | text s => exact congrArg (some (.text s) :: ·) behind
      | boolean b => exact congrArg (some (.boolean b) :: ·) behind
      | null => exact congrArg (some .null :: ·) behind
      | _ => exact behind

end Parameters

namespace Specification

/-- Parameters arrive where the text of the template says: the values of its SQL are what stands for
the operands among its tokens, from left to right. -/
theorem parameters_of_parse {template : String} {spec : Specification}
    (parsed : parse template = .ok spec) {params : Parameters} {around : Sql.Surroundings}
    {compiled : Sql.Compiled} (compiles : spec.compile params around = .ok compiled) :
    ∃ lexemes, tokenize template = .ok lexemes ∧
      params.arguments 0 (Token.operands (lexemes.map Lexeme.token)) =
        compiled.parameters.map some := by
  obtain ⟨tree, read, ⟨⟩⟩ := bind_eq_ok parsed
  obtain ⟨lexemes, tokenized, -⟩ := bind_eq_ok read
  obtain ⟨d, spells, htree⟩ := (parse_eq_ok_iff tokenized).mp read
  refine ⟨lexemes, tokenized, ?_⟩
  -- the slots of the tree, in the order of the tokens
  have order : Token.operands (lexemes.map Lexeme.token) = tree.slots := by
    subst htree
    rw [show lexemes.map Lexeme.token = d.tokens ++ [.eof] from spells, d.operands_tokens false]
    exact List.append_nil _
  have numbered : Token.Numbered 0 (lexemes.map Lexeme.token) :=
    Lexer.numbered_of_upToEnd tokenized
  -- what fills them, in the order of the SQL
  obtain ⟨bound, filled, written⟩ := bind_eq_ok compiles
  have fills : Node.Fills params tree bound := by
    have filled := mapError_eq_ok filled
    rw [bind_eq] at filled
    exact Node.fills_of_bind filled
  have values := Sql.fill_slots_of_ofNode fills (mapError_eq_ok written)
  calc params.arguments 0 (Token.operands (lexemes.map Lexeme.token))
      = tree.slots.map fun operand => (operand.fill params).toOption := by
        rw [params.arguments_eq numbered, order]
    _ = (tree.slots.map (·.fill params)).map Except.toOption := by
        rw [List.map_map]
        rfl
    _ = compiled.parameters.map some := by
        rw [values, List.map_map]
        rfl

/-- Literals, parameters by place, and one by name that is used inside and outside of a test. -/
def mixedTemplate : String :=
  "$[?$.note == %s && $.Lines[*][?@.qty > %(n)d || @.tag == null] && 1 < %d && $.code != %(n)s]"

open Grammar in
/-- The template as the grammar derives it. -/
def mixedDerivation : Derivation .template :=
  let named (kind : PlaceholderKind) : Derivation .operand := .atom (.placeholder ⟨.name "n", kind⟩)
  let numbered (index : Nat) (kind : PlaceholderKind) : Derivation .operand :=
    .atom (.placeholder ⟨.position index, kind⟩)
  let here (name : String) : Derivation .operand := .field .here [name] (by simp)
  let there (name : String) : Derivation .operand := .field .document [name] (by simp)
  let filter : Derivation .filter := .bracketed (.or
    (.and (.plain (.pair (here "qty") .greater (named .integer))) .andEnd)
    (.orMore (.and (.plain (.pair (here "tag") .equal (.atom .null))) .andEnd) .orEnd))
  let lines : Derivation .unary := .plain (.single (.test .document ["Lines"] (by simp) filter))
  .whole (.bracketed (.or (.and (.plain (.pair (there "note") .equal (numbered 0 .any)))
    (.andMore lines
      (.andMore (.plain (.pair (.atom (.integer 1)) .less (numbered 1 .integer)))
        (.andMore (.plain (.pair (there "code") .notEqual (named .any))) .andEnd)))) .orEnd))

/-- The template with its tree. -/
def mixedSpecification : Specification := ⟨mixedTemplate, mixedDerivation.tree false⟩

/-- The second placeholder by place has number 1, although it is the third of all. -/
theorem parameters_of_mixedTemplate : ∃ compiled,
    parse mixedTemplate = .ok mixedSpecification ∧
      mixedSpecification.compile ⟨[.text "x", .null], [("n", .integer 3)]⟩
        (.ofTable Sql.orderSchema "orders") = .ok compiled ∧
      compiled.parameters = [.text "x", .integer 3, .integer 1, .null, .integer 3] ∧
      ∃ lexemes, tokenize mixedTemplate = .ok lexemes ∧
        Parameters.arguments ⟨[.text "x", .null], [("n", .integer 3)]⟩ 0
          (Token.operands (lexemes.map Lexeme.token)) = compiled.parameters.map some := by
  have tokenized : tokenize mixedTemplate = .ok _ := rfl
  have read : Node.parse mixedTemplate = .ok mixedSpecification.tree :=
    (parse_eq_ok_iff tokenized).mpr ⟨mixedDerivation, rfl, rfl⟩
  have parsed : parse mixedTemplate = .ok mixedSpecification := by
    rw [parse, read]
    rfl
  have compiles : mixedSpecification.compile ⟨[.text "x", .null], [("n", .integer 3)]⟩
      (.ofTable Sql.orderSchema "orders") = .ok _ := rfl
  exact ⟨_, parsed, compiles, rfl, parameters_of_parse parsed compiles⟩

end Specification

end DataFilter
