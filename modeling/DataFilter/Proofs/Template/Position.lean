import DataFilter.Proofs.Template.Completing
import DataFilter.Proofs.Template.Spacing
import Mathlib.Data.List.Forall2

/-!
# Where a template is refused

An error points into its input: to a byte offset between two characters or at one of the ends, with
the next characters as its context (`SyntaxError.LiesIn`). The lexer keeps its position on such an
offset, so the faults that it finds and the lexemes that it reads lie there.

What the parser reports is the first lexeme that does not fit: the lexemes in front of it are those
of some template up to there (`BeginsTemplate`), and together with it they are those of none.
-/

namespace DataFilter

open Grammar

/-! ## Offsets in the input -/

theorem Text.utf8ByteSize_ofList (text : List Char) :
    (String.ofList text).utf8ByteSize = byteLength text := by
  induction text with
  | nil => rfl
  | cons c text ih =>
      rw [String.ofList_cons, String.utf8ByteSize_append, ih, String.utf8ByteSize_singleton,
        byteLength_cons]

/-- The offset lies in front of a character or at the end. -/
def Text.IsOffset (input : String) (offset : Nat) : Prop :=
  ∃ before behind, input.toList = before ++ behind ∧ offset = byteLength before

/-- The error lies at most at the end of the input, between two characters or at one of the ends,
and its context is what stands there, up to 20 characters. -/
structure SyntaxError.LiesIn (e : SyntaxError) (input : String) : Prop where
  bound : e.position ≤ input.utf8ByteSize
  place : ∃ before behind : String, input = before ++ behind ∧ e.position = before.utf8ByteSize ∧
    e.context = String.ofList (behind.toList.take 20)

theorem SyntaxError.liesIn_locate (fault : SyntaxFault) {input : String} {position : Nat}
    (offset : Text.IsOffset input position) : (locate fault input position).LiesIn input := by
  obtain ⟨before, behind, split, rfl⟩ := offset
  have parts : input = String.ofList before ++ String.ofList behind := by
    rw [← String.ofList_append, ← split, String.ofList_toList]
  have place : Text.byteLength before = (String.ofList before).utf8ByteSize :=
    (Text.utf8ByteSize_ofList before).symm
  refine ⟨?_, String.ofList before, String.ofList behind, parts, place, ?_⟩
  · show Text.byteLength before ≤ _
    rw [parts, String.utf8ByteSize_append, place]
    exact Nat.le_add_right _ _
  · show Text.context input (Text.byteLength before) = _
    rw [Text.context, split, Text.dropBytes?_append, String.toList_ofList]
    rfl

namespace Lexer

/-- The unread part stands at the position, behind all that has been read. -/
def InPlace (l : Lexer) : Prop :=
  ∃ before, l.input.toList = before ++ l.rest ∧ l.position = Text.byteLength before

theorem inPlace_ofInput (input : String) : (ofInput input).InPlace := ⟨[], rfl, rfl⟩

section Run

variable {l after : Lexer} {result : Except SyntaxError Lexeme}

theorem InPlace.isOffset (h : l.InPlace) : Text.IsOffset l.input l.position :=
  have ⟨before, split, place⟩ := h
  ⟨before, l.rest, split, place⟩

/-- Reading on moves the position by what is read. -/
theorem InPlace.read (h : l.InPlace) {front : List Char} (text : l.rest = front ++ after.rest)
    (input : after.input = l.input) (position : after.position = l.position + Text.byteLength front) :
    after.InPlace := by
  obtain ⟨before, split, place⟩ := h
  refine ⟨before ++ front, ?_, ?_⟩
  · rw [input, split, text, List.append_assoc]
  · rw [position, place, Text.byteLength_append]

theorem InPlace.skipBlanks (h : l.InPlace) : l.skipBlanks.InPlace :=
  h.read List.takeWhile_append_dropWhile.symm rfl rfl

theorem InPlace.skip (h : l.InPlace) (count : Nat) : (l.skip count).InPlace :=
  h.read (List.take_append_drop count l.rest).symm rfl rfl

/-- The lexemes or the fault that were found lie in the input. -/
def Places (input : String) : Except SyntaxError (List Lexeme) → Prop
  | .ok lexemes => ∀ lexeme ∈ lexemes, Text.IsOffset input lexeme.position
  | .error e => e.LiesIn input

theorem InPlace.take (h : l.InPlace) :
    Places l.input (l.take.1.map ([·])) ∧ l.take.2.input = l.input ∧ l.take.2.InPlace := by
  unfold Lexer.take
  split
  · exact ⟨List.forall_mem_singleton.mpr h.isOffset, rfl, h⟩
  · split
    · exact ⟨SyntaxError.liesIn_locate _ h.isOffset, rfl, h⟩
    · dsimp only
      split
      · exact ⟨SyntaxError.liesIn_locate _ h.isOffset, rfl, h.skip _⟩
      · exact ⟨List.forall_mem_singleton.mpr h.isOffset, rfl, h.skip _⟩

theorem InPlace.next (h : l.InPlace) (read : l.next = (result, after)) :
    Places l.input (result.map ([·])) ∧ after.input = l.input ∧ after.InPlace := by
  have taken := h.skipBlanks.take
  have same : l.skipBlanks.take = (result, after) := read
  rw [same] at taken
  exact taken

/-- What a run finds lies in the input. -/
theorem InPlace.upToEnd (h : l.InPlace) (n : Nat) : Places l.input (l.upToEnd n) := by
  induction n generalizing l with
  | zero =>
      rw [Lexer.upToEnd]
      exact (h.next rfl).1
  | succ n ih =>
      rw [Lexer.upToEnd]
      split
      · rename_i e after read
        exact (h.next read).1
      · rename_i lexeme after read
        obtain ⟨placed, input, inPlace⟩ := h.next read
        split
        · exact placed
        · have others := ih inPlace
          rw [input] at others
          cases run : after.upToEnd n with
          | error e =>
              rw [run] at others
              exact others
          | ok more =>
              rw [run] at others
              exact List.forall_mem_cons.mpr ⟨placed lexeme List.mem_cons_self, others⟩

end Run

end Lexer

/-! ## Templates that begin with given tokens -/

/-- A complete template has lexemes that begin with these tokens. What is complete is told by the
grammar and not by the parser, which accepts just that (`parse_eq_ok_iff`). -/
def BeginsTemplate (tokens : List Token) : Prop :=
  ∃ (template : String) (lexemes : List Lexeme) (d : Derivation .template),
    tokenize template = .ok lexemes ∧ Spells d lexemes ∧ tokens <+: lexemes.map Lexeme.token

/-- How a completing token is written. The only name among them is `a`. -/
def fillerText (token : Token) : List Char := (token.symbol?.getD "a").toList

/-- Completing tokens as they are written, each behind a blank. -/
def fillingText (tokens : List Token) : List Char :=
  tokens.flatMap fun token => ' ' :: fillerText token

theorem isName_or_mem_loneMarks : ∀ token ∈ fillers,
    (isName (fillerText token) = true ∧ readWord (fillerText token) = token) ∨
      ∃ mark ∈ Lexer.loneMarks, fillerText token = [mark.1] ∧ mark.2 = token := by
  decide

theorem positionalCount_filler : ∀ token ∈ fillers, token.positionalCount = 0 := by
  decide

/-- The next one stands behind a blank. -/
theorem isNameChar_head_fillingText (tokens : List Token) :
    ∀ c ∈ (fillingText tokens ++ []).head?, isNameChar c = false := by
  rw [List.append_nil]
  cases tokens with
  | nil => exact nofun
  | cons token tokens =>
      have first : (fillingText (token :: tokens)).head? = some ' ' := rfl
      rw [first]
      intro c here
      obtain rfl := Option.some.inj here
      decide

theorem reads_fillingText {tokens : List Token} (filling : IsFilling tokens) (count : Nat) :
    Lexer.Reads count (fillingText tokens) tokens [] := by
  induction tokens with
  | nil => exact Lexer.reads_nil count []
  | cons token tokens ih =>
      obtain ⟨filler, filling⟩ := List.forall_mem_cons.mp filling
      have behind := ih filling
      have split : fillingText (token :: tokens) =
          ' ' :: (fillerText token ++ fillingText tokens) := rfl
      rw [split]
      refine .blank (by decide) ?_
      rcases isName_or_mem_loneMarks token filler with ⟨named, read⟩ | ⟨⟨c, _⟩, lone, text, rfl⟩
      · have word := @Lexer.reads_word count _ _ named (isNameChar_head_fillingText tokens)
        rw [read] at word
        exact .cons (positionalCount_filler token filler) word behind
      · rw [text]
        exact behind.mark lone

/-- The first tokens of a text that is tokenized may be completed to others. -/
theorem exists_completed {input : String} {lexemes : List Lexeme} {tokens more : List Token}
    (h : tokenize input = .ok lexemes) (all : lexemes.map Lexeme.token = tokens ++ [.eof]) (n : Nat)
    (filling : IsFilling more) :
    ∃ template lexemes', tokenize template = .ok lexemes' ∧
      lexemes'.map Lexeme.token = tokens.take n ++ more ++ [.eof] := by
  obtain ⟨layout, found, shown, cuts, read⟩ := exists_layout h
  obtain rfl : found = tokens := List.append_cancel_right (read.symm.trans all)
  -- the pieces in front, with nothing behind them
  have kept : List.Forall₂ Piece.Respaces (layout.pieces.take n) (layout.pieces.take n) :=
    List.forall₂_same.mpr fun p hp => ⟨rfl, shown.gaps p (List.mem_of_mem_take hp), fun h => h⟩
  have front := cuts.respaced (List.take_append_drop n layout.pieces).symm
    (nofun : IsGap []) kept
  have count : found.take (layout.pieces.take n).length = found.take n := by
    rw [List.length_take, cuts.length_eq, ← List.take_eq_take_min]
  rw [count] at front
  let text := Layout.spell [] (layout.pieces.take n)
  have alone := front.tokenize nofun (String.toList_ofList (l := text))
  have tokens := (front.map_lexemes 0).1
  cases more with
  | nil => exact ⟨String.ofList text, _, alone, by rw [tokens, List.append_nil]⟩
  | cons next more =>
      obtain ⟨again, same, lexed⟩ := lexesTo_of_tokenize alone
      obtain rfl : again = found.take n := List.append_cancel_right (same.symm.trans tokens)
      rw [String.toList_ofList] at lexed
      have whole := lexed.append (.inl rfl) (reads_fillingText filling _)
      rw [← String.toList_ofList (l := text ++ _)] at whole
      exact ⟨_, tokenize_of_reads whole⟩

/-! ## The first lexeme that does not fit -/

/-- No derivation spells the end. -/
theorem Grammar.Derivation.eof_not_mem {c : Category} (d : Derivation c) : Token.eof ∉ d.tokens := by
  have anchors (anchor : Anchor) : anchor.token ≠ .eof := by cases anchor <;> exact Token.noConfusion
  have signs (sign : Sign) : sign.token ≠ .eof := by cases sign <;> exact Token.noConfusion
  have atoms (a : Atom) : a.token ≠ .eof := by cases a <;> exact Token.noConfusion
  have paths (path : List String) : Token.eof ∉ pathTokens path := by simp [pathTokens]
  induction d with
  | field anchor path named => simp [(anchors anchor).symm, paths path]
  | test anchor path named filter ih => simp [(anchors anchor).symm, paths path, anyElement, ih]
  | atom a => simp [(atoms a).symm]
  | pair left sign right ihLeft ihRight => simp [(signs sign).symm, ihLeft, ihRight]
  | elements path named filter ih => simp [paths path, anyElement, ih]
  | _ => simp_all

/-- A mismatch lies at a token that is there: what can be completed does not contain the end. -/
theorem exists_impossible {tokens : List Token} {m : Mismatch}
    (h : template (tokens ++ [.eof]) = .error m) :
    ∃ front bad behind, tokens ++ [.eof] = front ++ bad :: behind ∧ m.remaining = bad :: behind ∧
      ∃ (d : Derivation .template) (more : List Token), IsFilling more ∧
        d.tokens = front ++ more := by
  obtain ⟨front, more, d, split, filling, completed⟩ := exists_completion h
  cases left : m.remaining with
  | cons bad behind => exact ⟨front, bad, behind, left ▸ split, rfl, d, more, filling, completed⟩
  | nil =>
      have inside : Token.eof ∈ d.tokens := by
        rw [completed, ← List.append_nil front, ← left, ← split]
        simp
      exact absurd inside d.eof_not_mem

/-- With the token that a mismatch lies at, the tokens in front of it begin no template. -/
theorem not_derived {front rest : List Token} {bad : Token} {behind : List Token} {m : Mismatch}
    (h : template (front ++ bad :: behind) = .error m) (left : m.remaining = bad :: behind)
    (d : Derivation .template) : d.tokens ++ [.eof] ≠ front ++ bad :: rest := by
  intro derived
  obtain ⟨front', split, again⟩ :=
    follows_template _ (front ++ bad :: rest).length _ (Nat.le_refl _)
  rw [h] at split again
  have same : remaining (.error m : Except Mismatch (Node × List Token)) = bad :: behind := left
  rw [same] at split again
  obtain rfl := List.append_cancel_right split
  have refused := again (bad :: rest) rfl (Nat.le_refl _)
  rw [← derived, accepted d []] at refused
  cases refused

/-- The tokens in front of a mismatch begin a template, and with the next one they begin none. -/
theorem beginsTemplate_take_iff {input : String} {lexemes : List Lexeme} {m : Mismatch}
    (h : tokenize input = .ok lexemes) (refused : template (lexemes.map Lexeme.token) = .error m) :
    ∃ n, n + m.remaining.length = lexemes.length ∧ 0 < m.remaining.length ∧
      ∀ k, BeginsTemplate ((lexemes.map Lexeme.token).take k) ↔ k ≤ n := by
  obtain ⟨tokens, all, -⟩ := tokens_of_tokenize h
  rw [all] at refused ⊢
  obtain ⟨front, bad, behind, split, left, d, more, filling, completed⟩ :=
    exists_impossible refused
  have length := congrArg List.length split
  rw [← all, List.length_map, List.length_append, ← left] at length
  refine ⟨front.length, length.symm, by rw [left]; exact Nat.succ_pos _, fun k => ⟨?_, ?_⟩⟩
  · rintro ⟨template, others, d', -, spelled, ⟨rest, begun⟩⟩
    by_contra beyond
    obtain ⟨j, rfl⟩ : ∃ j, k = front.length + (j + 1) := ⟨k - front.length - 1, by omega⟩
    rw [split, List.take_length_add_append, List.take_succ_cons, List.append_assoc] at begun
    rw [split] at refused
    exact not_derived refused left d' (spelled.symm.trans begun.symm)
  · intro within
    have shorter : front.length ≤ tokens.length := by
      have total := congrArg List.length split
      rw [List.length_append, List.length_append, List.length_singleton, List.length_cons] at total
      omega
    have kept : tokens.take front.length = front := by
      rw [← List.take_append_of_le_length shorter, split, List.take_left]
    obtain ⟨template, others, tokenized, same⟩ := exists_completed h all front.length filling
    rw [kept, ← completed] at same
    refine ⟨template, others, d, tokenized, same, ?_⟩
    rw [split, List.take_append_of_le_length within, same, completed, List.append_assoc]
    exact (List.take_prefix k front).trans (List.prefix_append _ _)

/-- Every error lies in its input, and what is tokenized but not parsed is refused at the first
lexeme that does not fit: those in front of it begin a template, with it they begin none. -/
theorem refused_at_first_misfit {input : String} {e : SyntaxError}
    (h : Node.parse input = .error e) :
    e.LiesIn input ∧
      ∀ lexemes, tokenize input = .ok lexemes →
        ∃ (n : Nat) (bad : Lexeme), lexemes[n]? = some bad ∧ e.position = bad.position ∧
          ∀ k, BeginsTemplate ((lexemes.map Lexeme.token).take k) ↔ k ≤ n := by
  have placed : Lexer.Places input (tokenize input) := (Lexer.inPlace_ofInput input).upToEnd _
  unfold Node.parse at h
  cases tokenized : tokenize input with
  | error e' =>
      rw [tokenized] at h placed
      cases h
      exact ⟨placed, nofun⟩
  | ok lexemes =>
      rw [tokenized] at h placed
      simp only [bind, Except.bind, Node.ofTokens?] at h
      cases refused : template (lexemes.map Lexeme.token) with
      | ok found =>
          rw [refused] at h
          cases h
      | error m =>
          rw [refused] at h
          obtain ⟨n, length, some_left, begins⟩ := beginsTemplate_take_iff tokenized refused
          have counted : n = min (lexemes.length - m.remaining.length) (lexemes.length - 1) := by
            omega
          obtain ⟨bad, found, located⟩ := m.locate_eq tokenized counted
          have same : e = m.locate input lexemes := (Except.error.inj h).symm
          rw [same, located]
          refine ⟨SyntaxError.liesIn_locate _ (placed bad (List.mem_of_getElem? found)), ?_⟩
          rintro _ ⟨⟩
          exact ⟨n, bad, found, rfl, begins⟩

/-- Behind `&&` an operand is missing, so the bracket does not fit; the second template is refused by
the lexer. -/
theorem refused_at_first_misfit_bracket :
    (∃ lexemes e, tokenize "$[?@.a == 'é' && ]" = .ok lexemes ∧
      Node.parse "$[?@.a == 'é' && ]" = .error e ∧ e.LiesIn "$[?@.a == 'é' && ]" ∧
      e.position = 18 ∧ lexemes[9]? = some ⟨.closeBracket, 18⟩ ∧
      ∀ k, BeginsTemplate ((lexemes.map Lexeme.token).take k) ↔ k ≤ 9) ∧
    ∃ e, Node.parse "$[?@.a == 'é' é]" = .error e ∧ e.LiesIn "$[?@.a == 'é' é]" ∧
      e.position = 15 ∧ e.context = "é]" := by
  have missing : Node.parse "$[?@.a == 'é' && ]" =
      .error ⟨.expected "a value or field reference" .closeBracket, 18, "]"⟩ :=
    failure?_eq_some_iff.mp (by decide +kernel)
  have unknown : Node.parse "$[?@.a == 'é' é]" =
      .error ⟨.unexpectedCharacter 'é', 15, "é]"⟩ :=
    failure?_eq_some_iff.mp (by decide +kernel)
  refine ⟨?_, _, unknown, (refused_at_first_misfit unknown).1, rfl, rfl⟩
  obtain ⟨lexemes, tokenized, positions, bracket⟩ : ∃ lexemes,
      tokenize "$[?@.a == 'é' && ]" = .ok lexemes ∧
        lexemes.map Lexeme.position = [0, 1, 2, 3, 4, 5, 7, 10, 15, 18, 19] ∧
        lexemes[9]? = some ⟨.closeBracket, 18⟩ :=
    ⟨_, rfl, by decide +kernel, by decide +kernel⟩
  obtain ⟨lies, first⟩ := refused_at_first_misfit missing
  obtain ⟨n, bad, found, same, begins⟩ := first lexemes tokenized
  -- only one lexeme stands there
  have there : [0, 1, 2, 3, 4, 5, 7, 10, 15, 18, 19][n]? = some 18 := by
    rw [← positions, List.getElem?_map, found, Option.map_some, ← same]
  have inside := (List.getElem?_eq_some_iff.mp there).1
  have only : ∀ n < 11, [0, 1, 2, 3, 4, 5, 7, 10, 15, 18, 19][n]? = some 18 → n = 9 := by decide
  obtain rfl := only n inside there
  exact ⟨lexemes, _, tokenized, missing, lies, rfl, bracket, begins⟩

end DataFilter
