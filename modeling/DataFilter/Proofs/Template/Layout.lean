import DataFilter.Proofs.Template.Extent

/-!
# How a template is laid out

A template that is tokenized consists of its lexemes and of blanks, in front of each lexeme and
behind the last one. A `Layout` is a text taken apart in this way. `Cuts` says that the lexer takes
it apart so, lexeme by lexeme; the offsets of the lexemes are then those that the lexer reports.
-/

namespace DataFilter

/-- A lexeme as it is written, with the blanks in front of it. -/
structure Piece where
  gap : List Char
  text : List Char

/-- A text in pieces, with the blanks behind the last one. -/
structure Layout where
  pieces : List Piece
  last : List Char

namespace Layout

/-- The text of some pieces and of what stands behind them. -/
def spell (last : List Char) : List Piece → List Char
  | [] => last
  | p :: rest => p.gap ++ (p.text ++ spell last rest)

/-- The offset of each lexeme, and that of the end, if the first gap stands at `start`. -/
def offsetsFrom (last : List Char) (start : Nat) : List Piece → List Nat
  | [] => [start + Text.byteLength last]
  | p :: rest =>
    let offset := start + Text.byteLength p.gap
    offset :: offsetsFrom last (offset + Text.byteLength p.text) rest

/-- The whole text. -/
def text (layout : Layout) : List Char := spell layout.last layout.pieces

/-- The byte offsets of the lexemes in the text, and that of its end. -/
def offsets (layout : Layout) : List Nat := offsetsFrom layout.last 0 layout.pieces

/-- The layout of an input with these lexemes: its pieces begin where the lexemes are, apart from
blanks, and they end where only blanks follow up to the next one. -/
structure IsOf (layout : Layout) (input : String) (lexemes : List Lexeme) : Prop where
  text : layout.text = input.toList
  offsets : layout.offsets = lexemes.map Lexeme.position
  gaps : ∀ p ∈ layout.pieces, IsGap p.gap
  solid : ∀ p ∈ layout.pieces, IsSolid p.text
  last : IsGap layout.last

end Layout

open Layout

/-! ## A text has one layout -/

section Unique

variable {front front' back back' : List Char}

/-- Two texts of one length at the beginning of a text are the same. -/
theorem eq_of_byteLength (same : front ++ back = front' ++ back')
    (length : Text.byteLength front = Text.byteLength front') : front = front' ∧ back = back' := by
  induction front generalizing front' with
  | nil =>
      cases front' with
      | nil => exact ⟨rfl, same⟩
      | cons c front' =>
          have := c.utf8Size_pos
          rw [Text.byteLength_nil, Text.byteLength_cons] at length
          omega
  | cons c front ih =>
      cases front' with
      | nil =>
          have := c.utf8Size_pos
          rw [Text.byteLength_nil, Text.byteLength_cons] at length
          omega
      | cons d front' =>
          obtain ⟨rfl, behind⟩ := List.cons.inj same
          rw [Text.byteLength_cons, Text.byteLength_cons, Nat.add_left_cancel_iff] at length
          obtain ⟨rfl, rest⟩ := ih behind length
          exact ⟨rfl, rest⟩

/-- The blanks in front of what begins with none are all that there are. -/
theorem eq_of_gap (gap : IsGap front) (gap' : IsGap front')
    (first : ∀ c ∈ back.head?, Text.isBlank c = false)
    (first' : ∀ c ∈ back'.head?, Text.isBlank c = false) (same : front ++ back = front' ++ back') :
    front = front' ∧ back = back' := by
  have taken := takeWhile_append_of_head gap first
  rw [same, takeWhile_append_of_head gap' first'] at taken
  rw [taken] at same
  exact ⟨taken.symm, List.append_cancel_left same⟩

/-- The blanks behind what ends with none are all that there are. -/
theorem eq_of_gap_behind (solid : IsSolid front) (solid' : IsSolid front') (gap : IsGap back)
    (gap' : IsGap back') (same : front ++ back = front' ++ back') :
    front = front' ∧ back = back' := by
  have turned := congrArg List.reverse same
  rw [List.reverse_append, List.reverse_append] at turned
  have blank {text : List Char} (gap : IsGap text) : IsGap text.reverse :=
    fun c hc => gap c (List.mem_reverse.mp hc)
  have ends {text : List Char} (solid : IsSolid text) :
      ∀ c ∈ text.reverse.head?, Text.isBlank c = false := by
    rw [List.head?_reverse]
    exact solid.last
  obtain ⟨behind, before⟩ :=
    eq_of_gap (blank gap) (blank gap') (ends solid) (ends solid') turned
  exact ⟨List.reverse_inj.mp before, List.reverse_inj.mp behind⟩

/-- The first offset of some pieces lies behind the blanks that they begin with. -/
theorem Layout.first_offset {last : List Char} (blank : IsGap last) {pieces : List Piece}
    (gaps : ∀ p ∈ pieces, IsGap p.gap) :
    ∃ gap others, IsGap gap ∧ spell last pieces = gap ++ others ∧
      ∀ start, (offsetsFrom last start pieces).head? = some (start + Text.byteLength gap) := by
  cases pieces with
  | nil => exact ⟨last, [], blank, (List.append_nil last).symm, fun _ => rfl⟩
  | cons p rest => exact ⟨p.gap, _, gaps p List.mem_cons_self, rfl, fun _ => rfl⟩

theorem Layout.pieces_unique {last last' : List Char} {pieces pieces' : List Piece} {start : Nat}
    (blank : IsGap last) (blank' : IsGap last') (gaps : ∀ p ∈ pieces, IsGap p.gap)
    (gaps' : ∀ p ∈ pieces', IsGap p.gap) (solid : ∀ p ∈ pieces, IsSolid p.text)
    (solid' : ∀ p ∈ pieces', IsSolid p.text) (text : spell last pieces = spell last' pieces')
    (offsets : offsetsFrom last start pieces = offsetsFrom last' start pieces') :
    pieces = pieces' ∧ last = last' := by
  have nonempty (last : List Char) (start : Nat) (pieces : List Piece) :
      offsetsFrom last start pieces ≠ [] := by
    cases pieces <;> simp [offsetsFrom]
  induction pieces generalizing pieces' start with
  | nil =>
      cases pieces' with
      | nil => exact ⟨rfl, text⟩
      | cons p rest => exact absurd (List.cons.inj offsets).2.symm (nonempty _ _ _)
  | cons p rest ih =>
      cases pieces' with
      | nil => exact absurd (List.cons.inj offsets).2 (nonempty _ _ _)
      | cons p' rest' =>
          obtain ⟨gap, gaps⟩ := List.forall_mem_cons.mp gaps
          obtain ⟨gap', gaps'⟩ := List.forall_mem_cons.mp gaps'
          obtain ⟨here, solid⟩ := List.forall_mem_cons.mp solid
          obtain ⟨here', solid'⟩ := List.forall_mem_cons.mp solid'
          have first {p : Piece} (here : IsSolid p.text) (others : List Char) :
              ∀ c ∈ (p.text ++ others).head?, Text.isBlank c = false := by
            obtain ⟨c, body, split⟩ := List.exists_cons_of_ne_nil here.nonempty
            have first := here.first
            rw [split] at first ⊢
            exact first
          obtain ⟨sameGap, inside⟩ := eq_of_gap gap gap' (first here _) (first here' _) text
          -- up to the next lexeme there are the text of this one and blanks
          obtain ⟨front, others, blanks, split, offset⟩ := first_offset blank gaps
          obtain ⟨front', others', blanks', split', offset'⟩ := first_offset blank' gaps'
          have behind := (List.cons.inj offsets).2
          rw [← sameGap] at behind
          have next := congrArg List.head? behind
          rw [offset, offset', Option.some.injEq] at next
          have length : Text.byteLength (p.text ++ front) = Text.byteLength (p'.text ++ front') := by
            rw [Text.byteLength_append, Text.byteLength_append]
            omega
          have joined := inside
          rw [split, split', ← List.append_assoc, ← List.append_assoc] at joined
          obtain ⟨stretch, -⟩ := eq_of_byteLength joined length
          obtain ⟨sameText, -⟩ := eq_of_gap_behind here here' blanks blanks' stretch
          rw [sameText] at inside behind
          obtain ⟨rfl, rfl⟩ := ih gaps gaps' solid solid' (List.append_cancel_left inside) behind
          obtain ⟨_, _⟩ := p
          obtain ⟨_, _⟩ := p'
          cases sameGap
          cases sameText
          exact ⟨rfl, rfl⟩

/-- The layout of an input is determined by the positions of its lexemes. -/
theorem Layout.IsOf.unique {layout other : Layout} {input : String} {lexemes : List Lexeme}
    (h : layout.IsOf input lexemes) (h' : other.IsOf input lexemes) : layout = other := by
  obtain ⟨pieces, last⟩ := layout
  obtain ⟨pieces', last'⟩ := other
  obtain ⟨rfl, rfl⟩ := pieces_unique h.last h'.last h.gaps h'.gaps h.solid h'.solid
    (h.text.trans h'.text.symm) (h.offsets.trans h'.offsets.symm)
  rfl

end Unique

/-! ## The pieces that the lexer takes off -/

/-- With `count` placeholders read before them, the pieces are the lexemes that these tokens are
read from, in front of `last`. -/
inductive Cuts (last : List Char) : Nat → List Piece → List Token → Prop where
  | done (count : Nat) : Cuts last count [] []
  | step {count : Nat} {gap body : List Char} {c : Char} {shape : Shape} {token : Token}
      {pieces : List Piece} {tokens : List Token} (blank : IsGap gap)
      (solid : Text.isBlank c = false)
      (found : Shape.start? c (body ++ spell last pieces) = some (shape, body.length))
      (read : shape.read (c :: body) count = .ok token)
      (more : Cuts last (count + token.positionalCount) pieces tokens) :
      Cuts last count (⟨gap, c :: body⟩ :: pieces) (token :: tokens)

/-- The lexemes of some tokens, at the offsets that the pieces have. -/
def Layout.lexemesFrom (last : List Char) (start : Nat) (pieces : List Piece)
    (tokens : List Token) : List Lexeme :=
  List.zipWith Lexeme.mk (tokens ++ [.eof]) (offsetsFrom last start pieces)

namespace Cuts

variable {last : List Char} {count : Nat} {pieces : List Piece} {tokens : List Token}

/-- Taking off a lexeme with the blanks in front of it. -/
theorem next_eq {l : Lexer} {gap body : List Char} {c : Char} {shape : Shape} {token : Token}
    (rest : List Char) (text : l.rest = gap ++ (c :: body ++ rest)) (blank : IsGap gap)
    (solid : Text.isBlank c = false)
    (found : Shape.start? c (body ++ rest) = some (shape, body.length))
    (read : shape.read (c :: body) l.placeholders = .ok token) :
    l.next = (.ok ⟨token, l.position + Text.byteLength gap⟩,
      ⟨l.input, rest, l.position + Text.byteLength gap + Text.byteLength (c :: body),
        l.placeholders + token.positionalCount⟩) := by
  have stop : ∀ d ∈ (c :: body ++ rest).head?, Text.isBlank d = false := by
    rintro d ⟨⟩
    exact solid
  have skipped : l.skipBlanks =
      ⟨l.input, c :: body ++ rest, l.position + Text.byteLength gap, l.placeholders⟩ := by
    rw [Lexer.skipBlanks, text, dropWhile_append_of_head blank stop,
      takeWhile_append_of_head blank stop]
  rw [Lexer.next, skipped, Lexer.take]
  simp only [List.cons_append, found, List.take_left, read]
  simp [Lexer.skip]

/-- The lexer reads the tokens of the pieces, where they stand. -/
theorem upToEnd (h : Cuts last count pieces tokens) (blank : IsGap last) {l : Lexer} {n : Nat}
    (text : l.rest = spell last pieces) (placeholders : l.placeholders = count)
    (bound : l.rest.length ≤ n) :
    l.upToEnd n = .ok (lexemesFrom last l.position pieces tokens) := by
  induction h generalizing l n with
  | done count =>
      have ends : l.next.1 = .ok ⟨.eof, l.position + Text.byteLength last⟩ := by
        have skipped : l.skipBlanks =
            ⟨l.input, [], l.position + Text.byteLength last, l.placeholders⟩ := by
          have all : l.rest = last ++ [] := text.trans (List.append_nil last).symm
          rw [Lexer.skipBlanks, all, dropWhile_append_of_head blank (by simp),
            takeWhile_append_of_head blank (by simp)]
        rw [Lexer.next, skipped, Lexer.take]
      cases n with
      | zero =>
          rw [Lexer.upToEnd, ends]
          rfl
      | succ n =>
          rw [Lexer.upToEnd]
          split
          · rename_i e _ failed
            rw [failed] at ends
            cases ends
          · rename_i lexeme _ found
            rw [found] at ends
            cases ends
            rfl
  | @step count gap body c shape token pieces tokens gapBlank solid found read _ ih =>
      subst placeholders
      have next := next_eq (spell last pieces) text gapBlank solid found read
      have shorter : (spell last pieces).length < l.rest.length := by
        rw [text, spell, List.length_append, List.length_append, List.length_cons]
        omega
      obtain ⟨n, rfl⟩ : ∃ m, n = m + 1 := ⟨n - 1, by omega⟩
      rw [Lexer.upToEnd, next]
      simp only [if_neg (Shape.read_ne_eof found read)]
      rw [ih rfl rfl (by show (spell last pieces).length ≤ n; omega)]
      rfl

/-- The texts of the pieces begin and end without blanks. -/
theorem solid (h : Cuts last count pieces tokens) :
    ∀ p ∈ pieces, IsGap p.gap ∧ IsSolid p.text := by
  induction h with
  | done => exact nofun
  | step blank solid found _ _ ih =>
      exact List.forall_mem_cons.mpr ⟨⟨blank, Shape.isSolid_of_start? found solid⟩, ih⟩

theorem length_eq (h : Cuts last count pieces tokens) : pieces.length = tokens.length := by
  induction h with
  | done => rfl
  | step _ _ _ _ _ ih => rw [List.length_cons, List.length_cons, ih]

end Cuts

/-- Whatever is lexed to its end consists of such pieces. -/
theorem Lexer.LexesTo.exists_cuts {count : Nat} {text : List Char} {tokens : List Token}
    (h : LexesTo count text tokens) :
    ∃ last pieces, IsGap last ∧ text = spell last pieces ∧ Cuts last count pieces tokens := by
  obtain ⟨n, bound⟩ : ∃ n, text.length ≤ n := ⟨_, Nat.le_refl _⟩
  -- along the text, a blank or a lexeme at a time
  induction n generalizing count text tokens with
  | zero =>
      obtain rfl := List.length_eq_zero_iff.mp (Nat.le_zero.mp bound)
      obtain rfl := h.tokens_eq_nil
      exact ⟨[], [], nofun, rfl, .done count⟩
  | succ n ih =>
      cases text with
      | nil =>
          obtain rfl := h.tokens_eq_nil
          exact ⟨[], [], nofun, rfl, .done count⟩
      | cons c text =>
          rw [List.length_cons] at bound
          by_cases blank : Text.isBlank c = true
          · obtain ⟨last, pieces, gap, rfl, cuts⟩ := ih (h.blank blank) (by omega)
            cases cuts with
            | done => exact ⟨c :: last, [], List.forall_mem_cons.mpr ⟨blank, gap⟩, rfl, .done count⟩
            | @step _ front body d shape token pieces tokens inner solid found read more =>
                refine ⟨last, ⟨c :: front, d :: body⟩ :: pieces, gap, rfl, ?_⟩
                exact .step (List.forall_mem_cons.mpr ⟨blank, inner⟩) solid found read more
          · rw [Bool.not_eq_true] at blank
            obtain ⟨token, tokens, rfl⟩ := List.exists_cons_of_ne_nil (h.tokens_ne_nil blank)
            obtain ⟨shape, length, start, read, others⟩ := h.first blank
            obtain ⟨last, pieces, gap, split, cuts⟩ :=
              ih others (by rw [List.length_drop]; omega)
            have inside : length ≤ text.length := (Shape.start?_append start (.inl rfl) []).1
            have used : (text.take length).length = length := List.length_take_of_le inside
            refine ⟨last, ⟨[], c :: text.take length⟩ :: pieces, gap, ?_, ?_⟩
            · rw [spell, ← split, List.nil_append, List.cons_append, List.take_append_drop]
            · refine .step nofun blank ?_ read cuts
              rw [← split, List.take_append_drop, used]
              exact start

/-- Such pieces are tokenized, each lexeme where it stands. -/
theorem Cuts.tokenize {last : List Char} {pieces : List Piece} {tokens : List Token}
    (h : Cuts last 0 pieces tokens) (blank : IsGap last) {input : String}
    (text : input.toList = spell last pieces) :
    DataFilter.tokenize input = .ok (lexemesFrom last 0 pieces tokens) :=
  h.upToEnd blank text rfl (Nat.le_refl _)

/-- The lexemes are as many as the offsets. -/
theorem Cuts.map_lexemes {last : List Char} {count : Nat} {pieces : List Piece}
    {tokens : List Token} (h : Cuts last count pieces tokens) (start : Nat) :
    (lexemesFrom last start pieces tokens).map Lexeme.token = tokens ++ [.eof] ∧
      (lexemesFrom last start pieces tokens).map Lexeme.position =
        offsetsFrom last start pieces := by
  induction h generalizing start with
  | done => exact ⟨rfl, rfl⟩
  | step blank solid found read more ih =>
      obtain ⟨read, placed⟩ := ih _
      exact ⟨congrArg _ read, congrArg _ placed⟩

/-- The last lexeme is the end, behind the whole text. -/
theorem Cuts.exists_end {last : List Char} {count : Nat} {pieces : List Piece}
    {tokens : List Token} (h : Cuts last count pieces tokens) (start : Nat) :
    ∃ front, lexemesFrom last start pieces tokens =
      front ++ [⟨.eof, start + Text.byteLength (spell last pieces)⟩] := by
  induction h generalizing start with
  | done => exact ⟨[], rfl⟩
  | @step count gap body c shape token pieces tokens blank solid found read more ih =>
      obtain ⟨front, behind⟩ := ih (start + Text.byteLength gap +
        Text.byteLength (c :: body))
      refine ⟨⟨token, start + Text.byteLength gap⟩ :: front, ?_⟩
      have same : start + Text.byteLength gap + Text.byteLength (c :: body) +
          Text.byteLength (spell last pieces) =
          start + Text.byteLength (spell last (⟨gap, c :: body⟩ :: pieces)) := by
        rw [spell, Text.byteLength_append, Text.byteLength_append]
        dsimp only
        omega
      rw [same] at behind
      exact congrArg (List.cons ⟨token, start + Text.byteLength gap⟩) behind

/-- What is tokenized has a layout, and the lexer cuts it into the pieces of the layout. -/
theorem exists_layout {input : String} {lexemes : List Lexeme}
    (h : DataFilter.tokenize input = .ok lexemes) :
    ∃ (layout : Layout) (tokens : List Token), layout.IsOf input lexemes ∧
      Cuts layout.last 0 layout.pieces tokens ∧ lexemes.map Lexeme.token = tokens ++ [.eof] := by
  obtain ⟨tokens, split, lexed⟩ := lexesTo_of_tokenize h
  obtain ⟨last, pieces, blank, text, cuts⟩ := lexed.exists_cuts
  have same : lexemes = lexemesFrom last 0 pieces tokens :=
    Except.ok.inj (h.symm.trans (cuts.tokenize blank text))
  refine ⟨⟨pieces, last⟩, tokens, ?_, cuts, split⟩
  refine ⟨text.symm, ?_, fun p hp => (cuts.solid p hp).1, fun p hp => (cuts.solid p hp).2, blank⟩
  rw [same, (cuts.map_lexemes 0).2]
  rfl

/-- The last lexeme of an input is its end. -/
theorem exists_end_of_tokenize {input : String} {lexemes : List Lexeme}
    (h : DataFilter.tokenize input = .ok lexemes) :
    ∃ front, lexemes = front ++ [⟨.eof, Text.byteLength input.toList⟩] := by
  obtain ⟨layout, tokens, shown, cuts, -⟩ := exists_layout h
  have same : lexemes = lexemesFrom layout.last 0 layout.pieces tokens :=
    Except.ok.inj (h.symm.trans (cuts.tokenize shown.last shown.text.symm))
  obtain ⟨front, ends⟩ := cuts.exists_end 0
  refine ⟨front, ?_⟩
  rw [same, ends, Nat.zero_add, ← shown.text]
  rfl

end DataFilter
