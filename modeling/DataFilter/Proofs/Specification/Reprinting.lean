import DataFilter.Proofs.Number.Overflow
import DataFilter.Proofs.Specification.Arguments
import DataFilter.Proofs.Template.Layout
import DataFilter.Proofs.Template.Stray

/-!
# Printing what was parsed

The tree of a template is written as a template that is read as the same tree, as long as its binary
numbers are finite. They need not be: whole numbers out of range are refused, but digits with a
point are rounded, and from `2^1024 - 2^970` on the result is infinite. Such a number is written as
`inf` or `-inf`, which no template contains. Both parts of this are exact: a literal is infinite
just if its digits reach that bound, and the printed tree is refused just if it has such a literal.
-/

namespace DataFilter

open Grammar

/-! ## What tokens are read from -/

namespace Shape

variable {c : Char} {rest text : List Char} {shape : Shape} {more index : Nat}

/-- Only placeholders are read as placeholders, and only numbers as binary numbers. -/
theorem shape_of_read {token : Token} (h : start? c rest = some (shape, more))
    (read : shape.read text index = .ok token) :
    (∀ p, token = .placeholder p → shape = placeholder) ∧ ∀ x, token = .float x → shape = number := by
  cases gives_of_read read with
  | mark =>
      have single := (start?_spelling h).1 token rfl
      constructor <;> rintro _ rfl <;> cases single
  | float => exact ⟨nofun, fun _ _ => rfl⟩
  | placeholder => exact ⟨fun _ _ => rfl, nofun⟩
  | _ => exact ⟨nofun, nofun⟩

end Shape

theorem splitSign_eq {text digits : List Char} {negative : Bool}
    (h : splitSign text = (negative, digits)) : text = signText negative ++ digits := by
  unfold splitSign at h
  split at h <;> cases h <;> rfl

/-- A binary number is read from a sign, digits, a point and digits. -/
theorem isLiteralText_of_readNumber {text : List Char} {x : Binary64}
    (h : readNumber text = .ok (.float x)) : x.IsLiteralText text := by
  unfold readNumber at h
  cases signed : splitSign text with
  | mk negative digits =>
      have split := splitSign_eq signed
      simp only [signed] at h
      split at h
      · split at h <;> cases h
      · rename_i fraction pointed
        split at h
        · cases h
        · rename_i wellFormed
          cases h
          simp only [Bool.or_eq_true, Bool.not_eq_true', not_or, Bool.not_eq_false,
            List.isEmpty_iff] at wellFormed
          obtain ⟨⟨whole, nonempty⟩, pass⟩ := wellFormed
          refine ⟨negative, _, fraction, ?_, ⟨whole, fun c hc => List.mem_takeWhile_imp hc⟩,
            ⟨nonempty, List.all_eq_true.mp pass⟩, rfl⟩
          rw [split, List.append_assoc, ← pointed, List.takeWhile_append_dropWhile]
      · cases h

/-- The names of a lexeme are names. -/
theorem isSpelled_of_read {c : Char} {body rest : List Char} {shape : Shape} {token : Token}
    {index : Nat} (found : Shape.start? c (body ++ rest) = some (shape, body.length))
    (read : shape.read (c :: body) index = .ok token) : token.IsSpelled := by
  cases token with
  | identifier name =>
      have named : shape.read (c :: (body ++ rest).take body.length) index =
          .ok (.identifier name) := by
        rw [List.take_left]
        exact read
      exact Shape.isIdentifier_of_read found named
  | placeholder p =>
      obtain ⟨key, kind⟩ := p
      cases key with
      | position index => trivial
      | name name =>
          obtain rfl := (Shape.shape_of_read found read).1 _ rfl
          rcases Shape.starts_of_start? found with _ | _ | _ | _ | ⟨rfl, length⟩ | _
          · rename_i marked
            obtain ⟨token, ⟨⟩, -⟩ := Shape.isSome_symbol?_of_mark? marked
          · obtain ⟨kind, others, ⟨text, used⟩ | ⟨written, named, text, used⟩⟩ :=
              Shape.placeholderLength?_eq_some length
            · obtain ⟨rfl, -⟩ := List.append_inj (text.trans List.singleton_append.symm) used
              cases kind <;> cases read
            · have split : body ++ rest = '(' :: (written ++ [')', kind.letter]) ++ others := by
                rw [text]
                simp
              obtain ⟨rfl, -⟩ := List.append_inj split (by rw [used]; simp)
              have means := (readPlaceholder_name named kind index).symm.trans read
              cases means
              show isName (String.ofList written).toList = true
              rwa [String.toList_ofList]
  | _ => trivial

namespace Cuts

variable {last : List Char} {count : Nat} {pieces : List Piece} {tokens : List Token}

/-- A token is read from a lexeme in the text. -/
theorem exists_lexeme (h : Cuts last count pieces tokens) {token : Token} (hmem : token ∈ tokens) :
    ∃ (c : Char) (body rest : List Char) (shape : Shape) (index : Nat),
      Shape.start? c (body ++ rest) = some (shape, body.length) ∧
        shape.read (c :: body) index = .ok token ∧ c :: body <:+: Layout.spell last pieces := by
  induction h with
  | done => cases hmem
  | @step count gap body c shape first pieces tokens blank solid found read more ih =>
      rcases List.mem_cons.mp hmem with rfl | others
      · refine ⟨c, body, _, shape, count, found, read, ?_⟩
        exact ⟨gap, Layout.spell last pieces, List.append_assoc _ _ _⟩
      · obtain ⟨d, text, rest, shape, index, start, reads, front, back, inside⟩ := ih others
        refine ⟨d, text, rest, shape, index, start, reads, gap ++ c :: body ++ front, back, ?_⟩
        rw [Layout.spell, ← inside]
        simp

/-- The names among the tokens are names. -/
theorem isSpelled (h : Cuts last count pieces tokens) : ∀ token ∈ tokens, token.IsSpelled := by
  intro token hmem
  obtain ⟨c, body, rest, shape, index, found, read, -⟩ := h.exists_lexeme hmem
  exact isSpelled_of_read found read

/-- A binary number among the tokens is written in the text. -/
theorem exists_literalText (h : Cuts last count pieces tokens) {x : Binary64}
    (hmem : .float x ∈ tokens) :
    ∃ text, x.IsLiteralText text ∧ text <:+: Layout.spell last pieces := by
  obtain ⟨c, body, rest, shape, index, found, read, inside⟩ := h.exists_lexeme hmem
  obtain rfl := (Shape.shape_of_read found read).2 x rfl
  exact ⟨c :: body, isLiteralText_of_readNumber read, inside⟩

end Cuts

/-! ## Numbers of placeholders in a tree -/

/-- The number of a placeholder without a name. -/
def Operand.position? : Operand → Option Nat
  | placeholder ⟨.position index, _⟩ => some index
  | _ => none

/-- The operands among numbered tokens are numbered from left to right. -/
theorem Token.Numbered.positions {count : Nat} {tokens : List Token}
    (h : Token.Numbered count tokens) :
    (Token.operands tokens).filterMap Operand.position? =
      List.range' count ((Token.operands tokens).filterMap Operand.position?).length := by
  fun_induction Token.operands tokens generalizing count with
  | case1 => rfl
  | case2 rest ih => exact ih h.2.2
  | case3 rest ih => exact ih h.2.2
  | case4 token rest _ _ ih =>
      obtain ⟨number, others⟩ := h
      have behind := ih others
      cases token with
      | placeholder p =>
          obtain ⟨key, kind⟩ := p
          cases key with
          | name name => exact behind
          | position index =>
              obtain rfl := number _ rfl index rfl
              exact congrArg (index :: ·) behind
      | _ => exact behind

/-- The positions in a grounded tree are those of its slots. -/
theorem Node.IsGrounded.positions {tree : Node} {inTest : Bool} (h : tree.IsGrounded inTest) :
    tree.positions = tree.slots.filterMap Operand.position? := by
  induction tree generalizing inTest with
  | value operand =>
      cases operand with
      | literal v => rfl
      | placeholder p =>
          obtain ⟨key, kind⟩ := p
          cases key <;> rfl
  | globalScope => rfl
  | item => rfl
  | object parent name => cases h
  | field scope name => exact h.1.positions
  | collection parent predicate _ ih =>
      obtain ⟨path, -, inner⟩ := h
      show parent.positions ++ predicate.positions = _
      rw [path.positions, ih inner]
      rfl
  | prefixed op operand grouping ih => exact ih h
  | infixed left op right grouping ihLeft ihRight =>
      show left.positions ++ right.positions = _
      rw [ihLeft h.1, ihRight h.2, ← List.filterMap_append]
      rfl
  | postfixed operand op grouping ih => exact ih h

/-! ## Trees of templates -/

/-- A parsed tree with the derivation of its template, and the tokens that the template is cut
into. -/
theorem exists_cuts_of_parse {template : String} {tree : Node}
    (parsed : Node.parse template = .ok tree) :
    ∃ (last : List Char) (pieces : List Piece) (d : Derivation .template),
      template.toList = Layout.spell last pieces ∧ Cuts last 0 pieces d.tokens ∧
        d.tree false = tree ∧ Token.Numbered 0 (d.tokens ++ [.eof]) := by
  obtain ⟨lexemes, tokenized, -⟩ := bind_eq_ok parsed
  obtain ⟨d, spells, means⟩ := (parse_eq_ok_iff tokenized).mp parsed
  obtain ⟨layout, tokens, shown, cuts, split⟩ := exists_layout tokenized
  obtain rfl : d.tokens = tokens := List.append_cancel_right (spells.symm.trans split)
  refine ⟨layout.last, layout.pieces, d, shown.text.symm, cuts, means, ?_⟩
  rw [← split]
  exact Lexer.numbered_of_upToEnd tokenized

/-- The binary numbers of a tree are among the tokens of its derivation. -/
theorem Grammar.Derivation.mem_tokens_of_float {d : Derivation .template} {x : Binary64}
    (h : .literal (.float x) ∈ (d.tree false : Node).slots) : .float x ∈ d.tokens := by
  have operands := d.operands_tokens false []
  rw [List.append_nil] at operands
  have slot : Operand.literal (.float x) ∈ Token.operands d.tokens := by
    rw [operands]
    exact List.mem_append_left _ h
  clear operands h
  generalize d.tokens = tokens at slot ⊢
  fun_induction Token.operands tokens with
  | case1 => cases slot
  | case2 rest ih => exact List.mem_cons_of_mem _ (List.mem_cons_of_mem _ (ih slot))
  | case3 rest ih => exact List.mem_cons_of_mem _ (List.mem_cons_of_mem _ (ih slot))
  | case4 token rest _ _ ih =>
      rcases List.mem_append.mp slot with here | behind
      · have same : token = .float x := by
          cases token <;> simp [Token.operand?] at here
          rw [here]
        exact same ▸ List.mem_cons_self
      · exact List.mem_cons_of_mem _ (ih behind)

/-- The placeholders of a parsed tree are numbered, and its text is read back or has a stray name,
whichever its numbers say. -/
theorem reprints_of_parse {template : String} {tree : Node}
    (parsed : Node.parse template = .ok tree) :
    tree.NumberedFrom 0 ∧ Reprints .condition false tree := by
  obtain ⟨last, pieces, d, -, cuts, means, numbered⟩ := exists_cuts_of_parse parsed
  have slots : Token.operands (d.tokens ++ [.eof]) = tree.slots := by
    rw [← means]
    exact (d.operands_tokens false [.eof]).trans (List.append_nil _)
  have positions := numbered.positions
  rw [slots, ← (isGrounded_of_parse parsed).positions] at positions
  exact ⟨positions, means ▸ d.reprints false cuts.isSpelled⟩

/-- A template has no stray name. -/
theorem parse_eq_error_of_stray {tree : Node} (h : Stray 0 tree.render.toList) :
    ∃ e, Specification.parse (Specification.ofTree tree).template = .error e := by
  cases parsed : Specification.parse (Specification.ofTree tree).template with
  | error e => exact ⟨e, rfl⟩
  | ok spec =>
      obtain ⟨found, read, -⟩ := bind_eq_ok parsed
      obtain ⟨lexemes, tokenized, -⟩ := bind_eq_ok read
      obtain ⟨d, spells, -⟩ := (parse_eq_ok_iff tokenized).mp read
      obtain ⟨tokens, split, lexed⟩ := lexesTo_of_tokenize tokenized
      have follow := d.namesFollow
      rw [List.append_cancel_right (spells.symm.trans split)] at follow
      have text : (Specification.ofTree tree).template.toList =
          '$' :: '[' :: '?' :: '(' :: (tree.render.toList ++ [')', ']']) := by
        simp [Specification.ofTree]
      rw [text] at lexed
      obtain ⟨_, rfl, filtered⟩ := lexed.mark (show ('$', Token.dollar) ∈ Lexer.loneMarks by decide)
      obtain ⟨others, rfl, condition⟩ := filtered.filterMarks
      refine absurd ?_ (h.lexed _ others (delimits_cons _ (by decide)) condition)
      exact ((follow.tail Token.noConfusion).tail Token.noConfusion).tail Token.noConfusion |>.tail
        Token.noConfusion

/-- The printed form of a binary number is read as the number just if it is finite. -/
theorem tokenize_renderLiteral_iff {x : Binary64} :
    (∃ lexemes, tokenize (Value.float x).renderLiteral = .ok lexemes ∧
      lexemes.map Lexeme.token = [.float x, .eof]) ↔ x.isFinite = true := by
  constructor
  · rintro ⟨lexemes, tokenized, tokens⟩
    by_contra infinite
    obtain ⟨found, split, lexed⟩ := lexesTo_of_tokenize tokenized
    obtain rfl : found = [.float x] :=
      List.append_cancel_right (split.symm.trans tokens : found ++ [.eof] = [.float x] ++ [.eof])
    rw [← List.append_nil (Value.float x).renderLiteral.toList] at lexed
    refine (stray_float (Bool.eq_false_of_not_eq_true infinite) 0).lexed [] _ nofun lexed ?_
    exact namesFollow_of_no_name (by simp)
  · intro finite
    exact tokenize_of_reads ((written_float finite 0).reads [] nofun)

/-- In the tree of a template every binary number is what the digits of a lexeme are rounded to, and
it is finite, and written so that it is read back, just if they stay below the bound. If all are
finite, the tree is written as a template that is read as the same tree, and else as one that is
refused. -/
theorem Specification.reprinted_iff_isFinite {template : String} {tree : Node}
    (parsed : Node.parse template = .ok tree) :
    (∀ x, .literal (.float x) ∈ tree.slots →
      (∃ (negative : Bool) (whole fraction : List Char), IsDigits whole ∧ IsDigits fraction ∧
        signText negative ++ whole ++ '.' :: fraction <:+: template.toList ∧
        x = .ofDecimal negative (digitsValue (whole ++ fraction)) (-fraction.length) ∧
        (x.isFinite = true ↔
          digitsValue (whole ++ fraction) < Binary64.overflowBound * 10 ^ fraction.length)) ∧
      ((∃ lexemes, tokenize (Value.float x).renderLiteral = .ok lexemes ∧
        lexemes.map Lexeme.token = [.float x, .eof]) ↔ x.isFinite = true)) ∧
    (tree.IsFinite → parse (ofTree tree).template = .ok (ofTree tree)) ∧
    (¬tree.IsFinite → ∃ e, parse (ofTree tree).template = .error e) := by
  obtain ⟨numbered, reprints⟩ := reprints_of_parse parsed
  refine ⟨fun x hx => ⟨?_, tokenize_renderLiteral_iff⟩, fun finite => ?_, fun infinite => ?_⟩
  · obtain ⟨last, pieces, d, text, cuts, rfl, -⟩ := exists_cuts_of_parse parsed
    obtain ⟨numeral, ⟨negative, whole, fraction, rfl, hwhole, hfraction, rfl⟩, inside⟩ :=
      cuts.exists_literalText (Derivation.mem_tokens_of_float hx)
    rw [← text] at inside
    exact ⟨negative, whole, fraction, hwhole, hfraction, inside, rfl,
      Binary64.isFinite_ofDecimal_iff⟩
  · unfold parse
    rw [(reprints.expressible finite).parse_template numbered]
    rfl
  · exact parse_eq_error_of_stray (reprints.stray infinite 0 numbered)

/-! ## A literal beyond the bound -/

/-- A one with this many zeros behind it. -/
def oneWithZeros (zeros : Nat) : List Char := '1' :: List.replicate zeros '0'

/-- A field is compared with such a number, written with a decimal. -/
def largeTemplate (zeros : Nat) : String :=
  "$[?($.a < " ++ String.ofList (oneWithZeros zeros ++ ['.', '0']) ++ ")]"

/-- What the number is read as. -/
def largeNumber (zeros : Nat) : Binary64 :=
  .ofDecimal false (digitsValue (oneWithZeros zeros ++ ['0'])) (-(1 : Nat))

def largeTree (zeros : Nat) : Node :=
  .between (.field .globalScope "a") .lessThan (.literal (.float (largeNumber zeros)))

theorem isFinite_largeNumber_iff (zeros : Nat) : (largeNumber zeros).isFinite = true ↔
    digitsValue (oneWithZeros zeros ++ ['0']) < Binary64.overflowBound * 10 ^ 1 :=
  Binary64.isFinite_ofDecimal_iff

theorem isLiteralText_largeNumber (zeros : Nat) :
    (largeNumber zeros).IsLiteralText (oneWithZeros zeros ++ ['.', '0']) := by
  refine ⟨false, oneWithZeros zeros, ['0'], rfl, ⟨by simp [oneWithZeros], ?_⟩, ⟨by simp, by simp⟩,
    rfl⟩
  simp [oneWithZeros]

theorem parse_largeTemplate (zeros : Nat) :
    Node.parse (largeTemplate zeros) = .ok (largeTree zeros) := by
  have name : ∀ other ∈ ["a"], IsIdentifier other := by
    rw [List.forall_mem_singleton]
    exact ⟨by decide, by decide, by decide, by decide⟩
  have number : Written (0 + 0) (oneWithZeros zeros ++ ['.', '0']) 0
      [.float (largeNumber zeros)] :=
    ⟨rfl, by simp, rfl, fun rest hrest =>
      Lexer.reads_float (isLiteralText_largeNumber zeros) fun c hc => (hrest.number c hc).1⟩
  have written := (written_anchor .document name 0).between number (by rfl) (reads_sign .less _)
  have text : (largeTemplate zeros).toList = '$' :: '[' :: '?' :: '(' ::
      ((Anchor.document.symbol :: pathText ["a"]) ++
        ' ' :: (Sign.less.operator.symbol.toList ++ ' ' :: (oneWithZeros zeros ++ ['.', '0'])) ++
          [')', ']']) := by
    simp [largeTemplate, pathText, Anchor.symbol, Sign.operator, Operator.symbol]
  have reads := reads_template written
  rw [← text] at reads
  obtain ⟨lexemes, tokenized, tokens⟩ := tokenize_of_reads reads
  let comparison : Derivation .comparison :=
    .pair (.field .document ["a"] (List.cons_ne_nil "a" [])) .less
      (.atom (.float (largeNumber zeros)))
  refine (parse_eq_ok_iff tokenized).mpr ⟨.whole (.bracketed (.or (.and
    (.group (.or (.and (.plain comparison) .andEnd) .orEnd)) .andEnd) .orEnd)), ?_, rfl⟩
  rw [Spells, tokens]
  simp [comparison, Atom.token]

/-- With 308 zeros the number is finite, and the tree is read back. -/
theorem Specification.reprinted_iff_isFinite_large :
    Node.parse (largeTemplate 308) = .ok (largeTree 308) ∧ (largeTree 308).IsFinite ∧
      parse (ofTree (largeTree 308)).template = .ok (ofTree (largeTree 308)) := by
  have parsed := parse_largeTemplate 308
  have bounded : digitsValue (oneWithZeros 308 ++ ['0']) < Binary64.overflowBound * 10 ^ 1 := by
    decide +kernel
  have finite : (largeTree 308).IsFinite := by
    intro x hx
    have same : x = largeNumber 308 := by
      simpa [largeTree, Node.between, Node.slots, Node.literal] using hx
    rw [same, isFinite_largeNumber_iff]
    exact bounded
  exact ⟨parsed, finite, (reprinted_iff_isFinite parsed).2.1 finite⟩

/-- With one more it is infinite, and what is printed is no template. -/
theorem large_literal_is_infinite :
    ∃ tree, Node.parse (largeTemplate 309) = .ok tree ∧
      .literal (.float (.infinite false)) ∈ tree.slots ∧
      (Specification.ofTree tree).template = "$[?($.a < inf)]" ∧
      ∃ e, Specification.parse (Specification.ofTree tree).template = .error e := by
  have parsed := parse_largeTemplate 309
  have infinite : largeNumber 309 = .infinite false := by decide +kernel
  have slot : .literal (.float (.infinite false)) ∈ (largeTree 309).slots := by
    rw [largeTree, infinite]
    simp [Node.between, Node.slots, Node.literal]
  refine ⟨_, parsed, slot, ?_, ?_⟩
  · rw [largeTree, infinite]
    decide +kernel
  · obtain ⟨numbered, reprints⟩ := reprints_of_parse parsed
    refine parse_eq_error_of_stray (reprints.stray (fun finite => ?_) 0 numbered)
    exact absurd (finite (.infinite false) slot) Bool.false_ne_true

end DataFilter
