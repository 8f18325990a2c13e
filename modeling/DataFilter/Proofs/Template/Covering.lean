import DataFilter.Proofs.Template.Position
import Mathlib.Data.List.Chain

/-!
# The lexemes cover the template

Nothing of a template is lost between its lexemes, and nothing is read twice: from the end of what
one lexeme was read from there are only blanks up to the next one, and up to the end of the template
behind the last one. What a lexeme is read from is a lexeme also by itself: no character around it
has a part in it, so the same token is read from it alone. Only the number of a placeholder without
a name is then that of the first parameter.
-/

namespace DataFilter

open Layout

/-- What the lexer takes off at a byte offset of the input, if a lexeme begins there. -/
def Lexer.matchAt? (input : String) (offset : Nat) : Option String :=
  match Text.dropBytes? offset input.toList with
  | some (c :: rest) =>
    (Shape.start? c rest).map fun (_, more) => String.ofList (c :: rest.take more)
  | _ => none

/-- The token as it is read with no placeholder before it. -/
def Token.asFirst : Token → Token
  | placeholder ⟨.position _, kind⟩ => placeholder ⟨.position 0, kind⟩
  | token => token

/-- The lexeme `here` is read from `text` behind `before`, as it would be from `text` alone, and
`next` comes behind the blanks in `gap`. -/
structure Lexeme.Spans (input : String) (here next : Lexeme) (before text gap behind : String) :
    Prop where
  split : input = before ++ text ++ gap ++ behind
  position : here.position = before.utf8ByteSize
  found : Lexer.matchAt? input here.position = some text
  nonempty : text ≠ ""
  alone : tokenize text = .ok [⟨here.token.asFirst, 0⟩, ⟨.eof, text.utf8ByteSize⟩]
  blanks : IsGap gap.toList
  next : next.position = (before ++ text ++ gap).utf8ByteSize

/-- Only blanks stand between what a lexeme is read from and the next lexeme. -/
def Lexeme.Adjoins (input : String) (here next : Lexeme) : Prop :=
  ∃ before text gap behind, here.Spans input next before text gap behind

/-- The lexemes and the blanks between them are the whole input. -/
structure Lexeme.Cover (input : String) (lexemes : List Lexeme) : Prop where
  /-- Each lexeme stands behind those before it. -/
  increasing : (lexemes.map Lexeme.position).Pairwise (· < ·)
  /-- Each one begins with a character of the input, or at its end. -/
  boundary : ∀ lexeme ∈ lexemes, String.Pos.Raw.IsValid input ⟨lexeme.position⟩
  /-- The end is the last one and no other. -/
  ends : ∃ front, lexemes = front ++ [⟨.eof, input.utf8ByteSize⟩] ∧
    ∀ lexeme ∈ front, lexeme.token ≠ .eof
  /-- There are only blanks in front of the first one. -/
  first : ∃ gap behind : String, input = gap ++ behind ∧ IsGap gap.toList ∧
    lexemes.head?.map Lexeme.position = some gap.utf8ByteSize
  /-- Behind what a lexeme is read from there are only blanks up to the next one. -/
  adjoin : lexemes.IsChain (Lexeme.Adjoins input)

/-! ## Lexemes by themselves -/

theorem Lexer.matchAt?_append (before : List Char) {c : Char} {body rest : List Char}
    {shape : Shape} (found : Shape.start? c (body ++ rest) = some (shape, body.length)) :
    matchAt? (String.ofList (before ++ (c :: body ++ rest))) (Text.byteLength before) =
      some (String.ofList (c :: body)) := by
  rw [matchAt?, String.toList_ofList, Text.dropBytes?_append]
  simp only [List.cons_append, found, Option.map_some, List.take_left]

theorem readPlaceholder_first (text : List Char) (index : Nat) :
    readPlaceholder text 0 = (readPlaceholder text index).map Token.asFirst := by
  unfold readPlaceholder
  split
  · rfl
  · split <;> rfl

/-- The placeholders before a lexeme count for nothing but its own number. -/
theorem Shape.read_first {shape : Shape} {c : Char} {rest text : List Char} {more index : Nat}
    {token : Token} (found : start? c rest = some (shape, more))
    (h : shape.read text index = .ok token) : shape.read text 0 = .ok token.asFirst := by
  cases gives_of_read h with
  | mark =>
      have single := (start?_spelling found).1 token rfl
      cases token <;> first | exact h | cases single
  | placeholder p =>
      have same := readPlaceholder_first text index
      rw [show readPlaceholder text index = .ok (.placeholder p) from h] at same
      exact same
  | _ => exact h

/-- What a lexeme is read from is tokenized to the same token. -/
theorem tokenize_lexeme {c : Char} {body rest : List Char} {shape : Shape} {index : Nat}
    {token : Token} (solid : Text.isBlank c = false)
    (found : Shape.start? c (body ++ rest) = some (shape, body.length))
    (read : shape.read (c :: body) index = .ok token) :
    tokenize (String.ofList (c :: body)) =
      .ok [⟨token.asFirst, 0⟩, ⟨.eof, (String.ofList (c :: body)).utf8ByteSize⟩] := by
  have alone : Shape.start? c (body ++ []) = some (shape, body.length) :=
    Shape.start?_replace found (.inl nofun)
  have cuts : Cuts [] 0 [⟨[], c :: body⟩] [token.asFirst] :=
    .step nofun solid alone (Shape.read_first found read) (.done _)
  have text : (String.ofList (c :: body)).toList = spell [] [⟨[], c :: body⟩] := by
    rw [String.toList_ofList]
    simp [spell]
  rw [cuts.tokenize nofun text, Text.utf8ByteSize_ofList]
  simp [lexemesFrom, offsetsFrom]

/-- A lexeme with blanks behind it, up to the next one. -/
theorem Lexeme.spans {before body between behind : List Char} {c : Char} {shape : Shape}
    {index : Nat} {token : Token} {next : Lexeme} (solid : Text.isBlank c = false)
    (found : Shape.start? c (body ++ (between ++ behind)) = some (shape, body.length))
    (read : shape.read (c :: body) index = .ok token) (blanks : IsGap between)
    (place : next.position = Text.byteLength (before ++ (c :: body ++ between))) :
    Spans (String.ofList (before ++ (c :: body ++ (between ++ behind))))
      ⟨token, Text.byteLength before⟩ next (String.ofList before) (String.ofList (c :: body))
      (String.ofList between) (String.ofList behind) where
  split := by simp only [← String.ofList_append, List.append_assoc]
  position := (Text.utf8ByteSize_ofList before).symm
  found := Lexer.matchAt?_append before found
  nonempty := by simp [← String.toList_inj]
  alone := tokenize_lexeme solid found read
  blanks := by rwa [String.toList_ofList]
  next := by
    rw [place, ← String.ofList_append, ← String.ofList_append, Text.utf8ByteSize_ofList,
      List.append_assoc]

/-! ## All lexemes -/

section Cuts

variable {last : List Char} {count : Nat} {pieces : List Piece} {tokens : List Token}

/-- The first lexeme of some pieces stands behind their first blanks. -/
theorem Cuts.head?_lexemes (h : Cuts last count pieces tokens) (blank : IsGap last) :
    ∃ gap behind, IsGap gap ∧ spell last pieces = gap ++ behind ∧ ∀ start,
      (lexemesFrom last start pieces tokens).head?.map Lexeme.position =
        some (start + Text.byteLength gap) := by
  obtain ⟨gap, behind, blanks, split, offset⟩ :=
    first_offset blank fun p hp => (h.solid p hp).1
  refine ⟨gap, behind, blanks, split, fun start => ?_⟩
  rw [← List.head?_map, (h.map_lexemes start).2, offset]

/-- Each lexeme of some pieces adjoins the next one, whatever stands before them. -/
theorem Cuts.isChain_adjoins (h : Cuts last count pieces tokens) (blank : IsGap last)
    (before : List Char) :
    (lexemesFrom last (Text.byteLength before) pieces tokens).IsChain
      (Lexeme.Adjoins (String.ofList (before ++ spell last pieces))) := by
  induction h generalizing before with
  | done => exact .singleton _
  | @step count gap body c shape token pieces tokens _ solid found read more ih =>
      have others := ih (before ++ gap ++ (c :: body))
      obtain ⟨between, behind, blanks, rest, place⟩ := more.head?_lexemes blank
      have split : before ++ spell last (⟨gap, c :: body⟩ :: pieces) =
          before ++ gap ++ (c :: body) ++ spell last pieces := by
        simp [spell]
      have offsets : lexemesFrom last (Text.byteLength before) (⟨gap, c :: body⟩ :: pieces)
          (token :: tokens) = ⟨token, Text.byteLength (before ++ gap)⟩ ::
            lexemesFrom last (Text.byteLength (before ++ gap ++ (c :: body))) pieces tokens := by
        simp only [Text.byteLength_append]
        rfl
      rw [split, offsets]
      refine List.isChain_cons.mpr ⟨fun next here => ?_, others⟩
      have placed := place (Text.byteLength (before ++ gap ++ (c :: body)))
      rw [Option.mem_def.mp here, Option.map_some, Option.some.injEq,
        ← Text.byteLength_append, List.append_assoc] at placed
      rw [rest] at found ⊢
      rw [List.append_assoc]
      exact ⟨_, _, _, _, Lexeme.spans solid found read blanks placed⟩

end Cuts

/-- The next lexeme comes behind what this one is read from. -/
theorem Lexeme.Adjoins.lt {input : String} {here next : Lexeme} (h : Adjoins input here next) :
    here.position < next.position := by
  obtain ⟨before, text, gap, behind, spans⟩ := h
  have some_text : 0 < text.utf8ByteSize := by
    rw [Nat.pos_iff_ne_zero, ne_eq, String.utf8ByteSize_eq_zero_iff]
    exact spans.nonempty
  rw [spans.position, spans.next, String.utf8ByteSize_append, String.utf8ByteSize_append]
  omega

theorem Text.IsOffset.isValid {input : String} {offset : Nat} (h : IsOffset input offset) :
    String.Pos.Raw.IsValid input ⟨offset⟩ := by
  obtain ⟨before, behind, split, rfl⟩ := h
  refine String.Pos.Raw.isValid_iff_exists_append.mpr
    ⟨String.ofList before, String.ofList behind, ?_, ?_⟩
  · rw [← String.ofList_append, ← split, String.ofList_toList]
  · rw [← utf8ByteSize_ofList]
    rfl

/-- The lexemes of a template that is tokenized cover it: their positions ascend and lie in front of
characters, the last one is the end of the template and the only such token, there are only blanks
between what one of them is read from and the next, and each is read from its own text alone. -/
theorem lexemes_cover_template {input : String} {lexemes : List Lexeme}
    (h : tokenize input = .ok lexemes) : Lexeme.Cover input lexemes := by
  obtain ⟨layout, tokens, shown, cuts, -⟩ := exists_layout h
  have same : lexemes = lexemesFrom layout.last 0 layout.pieces tokens :=
    Except.ok.inj (h.symm.trans (cuts.tokenize shown.last shown.text.symm))
  have whole : String.ofList (spell layout.last layout.pieces) = input := by
    rw [show spell layout.last layout.pieces = input.toList from shown.text, String.ofList_toList]
  have adjoin : lexemes.IsChain (Lexeme.Adjoins input) := by
    have chain := cuts.isChain_adjoins shown.last []
    rwa [List.nil_append, whole, Text.byteLength_nil, ← same] at chain
  have placed : Lexer.Places input (tokenize input) := (Lexer.inPlace_ofInput input).upToEnd _
  rw [h] at placed
  refine ⟨?_, fun lexeme hlexeme => (placed lexeme hlexeme).isValid, ?_, ?_, adjoin⟩
  · rw [List.pairwise_map, ← List.isChain_iff_pairwise]
    exact adjoin.imp fun _ _ => Lexeme.Adjoins.lt
  · obtain ⟨front, ends⟩ := exists_end_of_tokenize h
    obtain ⟨others, tokens, none_other⟩ := tokens_of_tokenize h
    rw [ends, List.map_append] at tokens
    obtain rfl := List.append_cancel_right tokens
    refine ⟨front, ?_, fun lexeme hlexeme eof => none_other ?_⟩
    · rw [ends, ← Text.utf8ByteSize_ofList, String.ofList_toList]
    · rw [← eof]
      exact List.mem_map_of_mem hlexeme
  · obtain ⟨gap, behind, blanks, split, place⟩ := cuts.head?_lexemes shown.last
    refine ⟨String.ofList gap, String.ofList behind, ?_, ?_, ?_⟩
    · rw [← String.ofList_append, ← split, whole]
    · rwa [String.toList_ofList]
    · rw [same, place, Nat.zero_add, Text.utf8ByteSize_ofList]

/-- Two placeholders and a character of two bytes: the second placeholder is the first one of its
own text. -/
theorem lexemes_cover_template_bytes : ∃ lexemes,
    tokenize " %d=='é'\n>= %s" = .ok lexemes ∧ Lexeme.Cover " %d=='é'\n>= %s" lexemes ∧
      lexemes.map Lexeme.position = [1, 3, 5, 10, 13, 15] := by
  obtain ⟨lexemes, tokenized, positions⟩ : ∃ lexemes,
      tokenize " %d=='é'\n>= %s" = .ok lexemes ∧
        lexemes.map Lexeme.position = [1, 3, 5, 10, 13, 15] :=
    ⟨_, rfl, by decide +kernel⟩
  exact ⟨lexemes, tokenized, lexemes_cover_template tokenized, positions⟩

end DataFilter
