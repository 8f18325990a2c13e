import DataFilter.Proofs.Template.Layout
import DataFilter.Template.Parser

/-!
# Blanks between lexemes

Where blanks stand between two lexemes, any others may stand instead; where none stand, some may be
put there, and in front of the first lexeme and behind the last one there may be any or none. The
lexer cuts a text that is respaced in this way into the same lexemes, so it gives the same tokens,
and the parser the same tree or the same fault at the same token.
-/

namespace DataFilter

open Layout

/-! ## Respacing -/

/-- One piece may be written in the place of another: the lexeme is the same, and blanks stand in
front of it at least where they did. -/
def Piece.Respaces (p other : Piece) : Prop :=
  other.text = p.text ∧ IsGap other.gap ∧ (p.gap ≠ [] → other.gap ≠ [])

/-- One layout is another one with its blanks changed: any blanks in front of the first lexeme and
behind the last one, and between lexemes some wherever there were some. -/
structure Layout.Respaces (layout other : Layout) : Prop where
  texts : other.pieces.map Piece.text = layout.pieces.map Piece.text
  gaps : ∀ p ∈ other.pieces, IsGap p.gap
  last : IsGap other.last
  between : List.Forall₂ (fun p q => p.gap ≠ [] → q.gap ≠ []) layout.pieces.tail
    other.pieces.tail

theorem IsGap.apart {text : List Char} (h : IsGap text) : Apart text :=
  fun c hc => h c (List.mem_of_mem_head? hc)

theorem IsGap.apart_append {text : List Char} (h : IsGap text) (nonempty : text ≠ [])
    (rest : List Char) : Apart (text ++ rest) := by
  obtain ⟨c, text, rfl⟩ := List.exists_cons_of_ne_nil nonempty
  rintro _ ⟨⟩
  exact h c List.mem_cons_self

section Pieces

variable {last last' : List Char} {front front' back : List Piece}

/-- Respaced pieces with blanks behind them may stand in the place of pieces behind a lexeme,
whatever came behind these. -/
theorem replaces_spell (blank : IsGap last') (each : List.Forall₂ Piece.Respaces front front')
    (solid : ∀ p ∈ front, p.text ≠ []) :
    Replaces (spell last' front') (spell last (front ++ back)) := by
  induction each with
  | nil => exact .inl blank.apart
  | @cons p q front front' here _ ih =>
      obtain ⟨text, gap, kept⟩ := here
      obtain ⟨nonempty, solid⟩ := List.forall_mem_cons.mp solid
      by_cases empty : q.gap = []
      · -- the same lexeme follows at once, of one character or of more
        have empty' : p.gap = [] := by
          by_contra some_blanks
          exact kept some_blanks empty
        obtain ⟨c, body, split⟩ := List.exists_cons_of_ne_nil nonempty
        refine .inr ⟨c, body ++ spell last' front', body ++ spell last (front ++ back), ?_, ?_, ?_⟩
        · rw [spell, empty, text, split]
          rfl
        · rw [List.cons_append, spell, empty', split]
          rfl
        · cases body with
          | cons d body => exact .inr rfl
          | nil =>
              rcases ih solid with apart | ⟨d, more, more', same, same', -⟩
              · exact .inl apart
              · rw [same, same']
                exact .inr rfl
      · exact .inl (gap.apart_append empty _)

/-- The lexer cuts respaced pieces as it did before, whatever came behind them. -/
theorem Cuts.respaced {count : Nat} {pieces : List Piece} {tokens : List Token}
    (h : Cuts last count pieces tokens) (split : pieces = front ++ back) (blank : IsGap last')
    (each : List.Forall₂ Piece.Respaces front front') :
    Cuts last' count front' (tokens.take front.length) := by
  induction each generalizing count pieces tokens with
  | nil => exact .done count
  | @cons p q front front' here others ih =>
      cases h with
      | done => cases split
      | @step _ gap body c shape token pieces tokens gapBlank solid found read more =>
          obtain ⟨rfl, rfl⟩ := List.cons.inj split
          obtain ⟨text, gap', -⟩ := here
          obtain ⟨newGap, newText⟩ := q
          obtain rfl : newText = c :: body := text
          have swap : Replaces (spell last' front') (spell last (front ++ back)) :=
            replaces_spell blank others fun p hp =>
              (more.solid p (List.mem_append_left _ hp)).2.nonempty
          exact .step gap' solid (Shape.start?_replace found swap) read (ih more rfl)

end Pieces

/-- The blanks in front of the first lexeme do not matter. -/
theorem Cuts.respaced_first {last gap : List Char} {count : Nat} {p : Piece} {pieces : List Piece}
    {tokens : List Token} (h : Cuts last count (p :: pieces) tokens) (blank : IsGap gap) :
    Cuts last count (⟨gap, p.text⟩ :: pieces) tokens := by
  cases h with
  | step _ solid found read more => exact .step blank solid found read more

/-- Pieces with the same texts are the same but for their gaps. -/
theorem forall₂_respaces {pieces pieces' : List Piece}
    (texts : pieces'.map Piece.text = pieces.map Piece.text) (gaps : ∀ p ∈ pieces', IsGap p.gap)
    (between : List.Forall₂ (fun p q => p.gap ≠ [] → q.gap ≠ []) pieces pieces') :
    List.Forall₂ Piece.Respaces pieces pieces' := by
  induction between with
  | nil => exact .nil
  | cons kept _ ih =>
      obtain ⟨text, texts⟩ := List.cons.inj texts
      obtain ⟨gap, gaps⟩ := List.forall_mem_cons.mp gaps
      exact .cons ⟨text, gap, kept⟩ (ih texts gaps)

theorem Layout.Respaces.cuts {layout other : Layout} (h : layout.Respaces other) {tokens : List Token}
    (cuts : Cuts layout.last 0 layout.pieces tokens) : Cuts other.last 0 other.pieces tokens := by
  obtain ⟨pieces, last⟩ := layout
  obtain ⟨pieces', last'⟩ := other
  obtain ⟨texts, gaps, blank, between⟩ := h
  cases pieces with
  | nil =>
      obtain rfl : pieces' = [] := List.map_eq_nil_iff.mp texts
      cases cuts with
      | done => exact .done 0
  | cons p pieces =>
      cases pieces' with
      | nil => cases texts
      | cons q pieces' =>
          obtain ⟨text, texts⟩ := List.cons.inj texts
          obtain ⟨gap, gaps⟩ := List.forall_mem_cons.mp gaps
          have first := cuts.respaced_first gap
          rw [← text] at first
          have others := forall₂_respaces texts gaps between
          have all := first.respaced (List.append_nil _).symm blank
            (.cons ⟨rfl, gap, fun h => h⟩ others)
          rwa [List.take_of_length_le (by rw [← cuts.length_eq]; exact Nat.le_refl _)] at all

/-! ## What is read from the same tokens -/

/-- Both inputs are read as the same tree, or both are refused for the same fault at the lexeme of
the same number. -/
def ReadAlike (input other : String) (lexemes lexemes' : List Lexeme) : Prop :=
  (∃ tree, Node.parse input = .ok tree ∧ Node.parse other = .ok tree) ∨
    ∃ (number : Nat) (fault : SyntaxFault) (a b : Lexeme),
      lexemes[number]? = some a ∧ lexemes'[number]? = some b ∧
        Node.parse input = .error (.locate fault input a.position) ∧
        Node.parse other = .error (.locate fault other b.position)

/-- A mismatch lies at the lexeme that begins the remaining tokens, or else at the last one. -/
theorem Mismatch.locate_eq (m : Mismatch) {input : String} {lexemes : List Lexeme}
    (h : tokenize input = .ok lexemes) {number : Nat}
    (counted : number = min (lexemes.length - m.remaining.length) (lexemes.length - 1)) :
    ∃ a, lexemes[number]? = some a ∧
      m.locate input lexemes = .locate (.expected m.wanted a.token) input a.position := by
  obtain ⟨front, rfl⟩ := exists_end_of_tokenize h
  generalize hlast : (⟨.eof, Text.byteLength input.toList⟩ : Lexeme) = last at h counted ⊢
  have length : (front ++ [last]).length = front.length + 1 := List.length_append
  unfold Mismatch.locate
  rw [length] at counted ⊢
  rcases Nat.lt_or_ge front.length (front.length + 1 - m.remaining.length) with beyond | within
  · have out : (front ++ [last])[front.length + 1 - m.remaining.length]? = none :=
      List.getElem?_eq_none (by omega)
    obtain rfl : number = front.length := by omega
    rw [out, hlast]
    exact ⟨last, List.getElem?_concat_length, rfl⟩
  · obtain rfl : number = front.length + 1 - m.remaining.length := by omega
    obtain ⟨a, found⟩ : ∃ a, (front ++ [last])[front.length + 1 - m.remaining.length]? = some a :=
      ⟨_, List.getElem?_eq_getElem (by omega)⟩
    rw [found]
    exact ⟨a, rfl, rfl⟩

/-- Tokens decide what is read. -/
theorem readAlike_of_tokens {input other : String} {lexemes lexemes' : List Lexeme}
    (h : tokenize input = .ok lexemes) (h' : tokenize other = .ok lexemes')
    (same : lexemes'.map Lexeme.token = lexemes.map Lexeme.token) :
    ReadAlike input other lexemes lexemes' := by
  have length : lexemes'.length = lexemes.length := by
    simpa using congrArg List.length same
  unfold ReadAlike Node.parse
  rw [h, h']
  simp only [bind, Except.bind, same]
  cases Node.ofTokens? (lexemes.map Lexeme.token) with
  | ok tree => exact .inl ⟨tree, rfl, rfl⟩
  | error m =>
      obtain ⟨a, found, located⟩ := m.locate_eq h rfl
      obtain ⟨b, found', located'⟩ := m.locate_eq h' rfl
      rw [length] at found'
      have token : b.token = a.token := by
        have read := congrArg (fun tokens => tokens[
          min (lexemes.length - m.remaining.length) (lexemes.length - 1)]?) same
        simp only [List.getElem?_map, found, found', Option.map_some, Option.some.injEq] at read
        exact read
      refine .inr ⟨_, .expected m.wanted a.token, a, b, found, found', ?_, ?_⟩
      · exact congrArg Except.error located
      · rw [← token]
        exact congrArg Except.error located'

/-! ## Templates that are respaced -/

/-- A template that is tokenized has one layout, and however it is respaced, it is tokenized to the
same tokens, each where its lexeme stands now, and read as the same tree or refused for the same
fault at the same token. -/
theorem reads_alike_respaced {input : String} {lexemes : List Lexeme}
    (h : tokenize input = .ok lexemes) :
    (∃ layout : Layout, layout.IsOf input lexemes) ∧
      ∀ layout other : Layout, layout.IsOf input lexemes → layout.Respaces other →
        ∃ lexemes', tokenize (String.ofList other.text) = .ok lexemes' ∧
          lexemes'.map Lexeme.token = lexemes.map Lexeme.token ∧
          other.IsOf (String.ofList other.text) lexemes' ∧
          ReadAlike input (String.ofList other.text) lexemes lexemes' := by
  obtain ⟨found, tokens, shown, cuts, read⟩ := exists_layout h
  refine ⟨⟨found, shown⟩, ?_⟩
  intro layout other isOf respaced
  obtain rfl := shown.unique isOf
  have again := respaced.cuts cuts
  have text : (String.ofList other.text).toList = spell other.last other.pieces :=
    String.toList_ofList
  have tokenized := again.tokenize respaced.last text
  have same : (lexemesFrom other.last 0 other.pieces tokens).map Lexeme.token =
      lexemes.map Lexeme.token := by
    rw [(again.map_lexemes 0).1, read]
  refine ⟨_, tokenized, same, ?_, readAlike_of_tokens h tokenized same⟩
  exact ⟨text.symm, (again.map_lexemes 0).2.symm, fun p hp => (again.solid p hp).1,
    fun p hp => (again.solid p hp).2, respaced.last⟩

/-- A layout from the texts of its gaps and lexemes. -/
def Layout.ofTexts (pieces : List (String × String)) (last : String) : Layout :=
  ⟨pieces.map fun p => ⟨p.1.toList, p.2.toList⟩, last.toList⟩

/-- `$[?!@.a<1.5&&@.b=='x  y']` in its pieces. -/
def crowded : Layout :=
  .ofTexts [("", "$"), ("", "["), ("", "?"), ("", "!"), ("", "@"), ("", "."), ("", "a"), ("", "<"),
    ("", "1.5"), ("", "&&"), ("", "@"), ("", "."), ("", "b"), ("", "=="), ("", "'x  y'"), ("", "]")] ""

/-- The same lexemes with blanks and line feeds between them, but not within the string. -/
def spread : Layout :=
  .ofTexts [(" ", "$"), ("", "["), ("\n", "?"), (" ", "!"), ("\t", "@"), ("", "."), (" ", "a"),
    (" ", "<"), (" ", "1.5"), ("\n  ", "&&"), (" ", "@"), (" ", "."), ("", "b"), (" ", "=="),
    ("\n", "'x  y'"), (" ", "]")] "\n"

theorem reads_alike_respaced_spread : ∃ lexemes lexemes',
    tokenize "$[?!@.a<1.5&&@.b=='x  y']" = .ok lexemes ∧
      crowded.IsOf "$[?!@.a<1.5&&@.b=='x  y']" lexemes ∧ crowded.Respaces spread ∧
      spread.text = " $[\n? !\t@. a < 1.5\n  && @ .b ==\n'x  y' ]\n".toList ∧
      tokenize (String.ofList spread.text) = .ok lexemes' ∧
      ReadAlike "$[?!@.a<1.5&&@.b=='x  y']" (String.ofList spread.text) lexemes lexemes' := by
  obtain ⟨lexemes, tokenized, offsets⟩ : ∃ lexemes,
      tokenize "$[?!@.a<1.5&&@.b=='x  y']" = .ok lexemes ∧
        crowded.offsets = lexemes.map Lexeme.position :=
    ⟨_, rfl, by decide +kernel⟩
  have isOf : crowded.IsOf "$[?!@.a<1.5&&@.b=='x  y']" lexemes :=
    ⟨by decide +kernel, offsets, by decide, by decide, by decide⟩
  have respaced : crowded.Respaces spread := by
    refine ⟨by decide, by decide, by decide, ?_⟩
    simp [crowded, Layout.ofTexts, spread]
  obtain ⟨lexemes', tokenized', -, -, alike⟩ :=
    (reads_alike_respaced tokenized).2 crowded spread isOf respaced
  exact ⟨lexemes, lexemes', tokenized, isOf, respaced, by decide +kernel, tokenized', alike⟩

end DataFilter
