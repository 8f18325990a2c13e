import DataFilter.Proofs.Template.Position

/-!
# Faults of the lexer

Readers of lexemes rely on what the shapes let through: a string has the same quote at both ends and
a character behind every backslash, a placeholder ends with one of three letters, and a number with
a point has digits on both sides of it. `Shape.IsReadAs` lists what lexemes look like and what is
read from them, and `Shape.isReadAs` says that this is all. So of the faults that readers can
report, only two are ever met (`Shape.Refuses`), and a template that is not tokenized has one of
them or a character with which no lexeme begins (`SyntaxError.IsLexical`).
-/

namespace DataFilter

/-! ## What lexemes look like -/

/-- The letters that stand behind a backslash for a character. -/
def escapeLetters : List Char := ['n', 't', 'r', '"', '\'', '\\']

/-- What may stand between the quotes of a string: every backslash has a character behind it, which
is no line feed, and a quote of the same kind is such a character. -/
inductive IsStringBody (quote : Char) : List Char → Prop where
  | nil : IsStringBody quote []
  | plain {c : Char} {rest : List Char} (backslash : c ≠ '\\') (inside : c ≠ quote)
      (behind : IsStringBody quote rest) : IsStringBody quote (c :: rest)
  | escape {c : Char} {rest : List Char} (line : c ≠ '\n') (behind : IsStringBody quote rest) :
      IsStringBody quote ('\\' :: c :: rest)

namespace Shape

/-- Lexemes that cannot be read: whole numbers that are out of range, and strings with an unknown
escape, of which the first one is reported. -/
inductive Refuses : Shape → List Char → SyntaxFault → Prop where
  | outOfRange {negative : Bool} {digits : List Char} (pass : IsDigits digits)
      (far : Integer.ofInt? (if negative then -(digitsValue digits : Int) else digitsValue digits) =
        none) :
      Refuses number (signText negative ++ digits)
        (.integerOutOfRange (String.ofList (signText negative ++ digits)))
  | unknownEscape {quote c : Char} {front content rest : List Char}
      (quotes : quote = '"' ∨ quote = '\'')
      (body : IsStringBody quote (front ++ '\\' :: c :: rest))
      (known : resolveEscapes front = .ok content) (unknown : c ∉ escapeLetters) :
      Refuses quoted (quote :: (front ++ '\\' :: c :: rest ++ [quote])) (.invalidEscape c)

/-- What lexemes of each shape look like, and what they are read as. -/
inductive IsReadAs : Shape → List Char → Nat → Except SyntaxFault Token → Prop where
  | mark {token : Token} {symbol : String} {index : Nat} (spelled : token.symbol? = some symbol) :
      IsReadAs (mark token) symbol.toList index (.ok token)
  | integer {negative : Bool} {digits : List Char} {index : Nat} {n : Integer}
      (pass : IsDigits digits)
      (value : (if negative then -(digitsValue digits : Int) else digitsValue digits) = n.toInt) :
      IsReadAs number (signText negative ++ digits) index (.ok (.integer n))
  | float {negative : Bool} {whole fraction : List Char} {index : Nat} (front : IsDigits whole)
      (behind : IsDigits fraction) :
      IsReadAs number (signText negative ++ whole ++ '.' :: fraction) index
        (.ok (.float (.ofDecimal negative (digitsValue (whole ++ fraction)) (-fraction.length))))
  | text {quote : Char} {body content : List Char} {index : Nat}
      (quotes : quote = '"' ∨ quote = '\'') (inside : IsStringBody quote body)
      (known : resolveEscapes body = .ok content) :
      IsReadAs quoted (quote :: (body ++ [quote])) index (.ok (.text (String.ofList content)))
  | position (kind : PlaceholderKind) (index : Nat) :
      IsReadAs placeholder ['%', kind.letter] index (.ok (.placeholder ⟨.position index, kind⟩))
  | named (kind : PlaceholderKind) {name : List Char} {index : Nat} (named : isName name = true) :
      IsReadAs placeholder ('%' :: '(' :: (name ++ [')', kind.letter])) index
        (.ok (.placeholder ⟨.name (String.ofList name), kind⟩))
  | word {name : List Char} {index : Nat} (named : isName name = true) :
      IsReadAs word name index (.ok (readWord name))
  | refused {shape : Shape} {text : List Char} {index : Nat} {fault : SyntaxFault}
      (refused : Refuses shape text fault) : IsReadAs shape text index (.error fault)

/-- Only readers fail, and they fail with what is refused. -/
theorem IsReadAs.refuses {shape : Shape} {text : List Char} {index : Nat} {fault : SyntaxFault}
    (h : IsReadAs shape text index (.error fault)) : Refuses shape text fault := by
  cases h with
  | refused refused => exact refused

/-! ## Marks, numbers, placeholders and words -/

theorem symbol?_of_pairMark? {c d : Char} {token : Token} (h : pairMark? c d = some token) :
    ∃ symbol, token.symbol? = some symbol ∧ symbol.toList = [c, d] := by
  unfold pairMark? at h
  split at h <;> cases h <;> exact ⟨_, rfl, rfl⟩

theorem symbol?_of_singleMark? {c : Char} {token : Token} (h : singleMark? c = some token) :
    ∃ symbol, token.symbol? = some symbol ∧ symbol.toList = [c] := by
  unfold singleMark? at h
  split at h <;> cases h <;> exact ⟨_, rfl, rfl⟩

section Lexeme

variable {shape : Shape} {c quote : Char} {body rest : List Char} {index : Nat}

theorem isReadAs_mark (h : mark? c (body ++ rest) = some (shape, body.length)) :
    IsReadAs shape (c :: body) index (shape.read (c :: body) index) := by
  unfold mark? at h
  split at h
  · rename_i token pair
    obtain ⟨rfl, one⟩ := Prod.mk.inj (Option.some.inj h)
    obtain ⟨d, rfl⟩ := List.length_eq_one_iff.mp one.symm
    obtain ⟨symbol, spelled, letters⟩ := symbol?_of_pairMark? pair
    rw [← letters]
    exact .mark spelled
  · obtain ⟨token, single, same⟩ := Option.map_eq_some_iff.mp h
    obtain ⟨rfl, none_behind⟩ := Prod.mk.inj same
    obtain rfl := List.eq_nil_of_length_eq_zero none_behind.symm
    obtain ⟨symbol, spelled, letters⟩ := symbol?_of_singleMark? single
    rw [← letters]
    exact .mark spelled

/-- Digits, with a sign or without, are a whole number or out of range. -/
theorem isReadAs_whole (negative : Bool) {digits : List Char} (pass : IsDigits digits) :
    IsReadAs number (signText negative ++ digits) index
      (number.read (signText negative ++ digits) index) := by
  cases value : Integer.ofInt? (if negative then -(digitsValue digits : Int)
      else digitsValue digits) with
  | some n =>
      have same := (Integer.ofInt?_eq_some_iff.mp value).symm
      rw [read, readNumber_digits pass same]
      exact .integer pass same
  | none =>
      have ends : digits.dropWhile Char.isDigit = [] := List.dropWhile_eq_nil_iff.mpr pass.2
      have starts := pass.head []
      rw [List.append_nil] at starts
      have refused : readNumber (signText negative ++ digits) =
          .error (.integerOutOfRange (String.ofList (signText negative ++ digits))) := by
        rw [readNumber, splitSign_signText negative starts]
        simp only [ends, value]
      rw [read, refused]
      exact .refused (.outOfRange pass value)

/-- What a number consists of behind its sign. -/
theorem isReadAs_number (negative : Bool) {digits : List Char}
    (first : ∃ d ∈ digits.head?, d.isDigit = true)
    (extent : (∀ d ∈ digits, d.isDigit = true) ∨
      ∃ whole fraction, digits = whole ++ '.' :: fraction ∧ (∀ d ∈ whole, d.isDigit = true) ∧
        IsDigits fraction) :
    IsReadAs number (signText negative ++ digits) index
      (number.read (signText negative ++ digits) index) := by
  obtain ⟨d, starts, digit⟩ := first
  rcases extent with pass | ⟨whole, fraction, rfl, pass, behind⟩
  · refine isReadAs_whole negative ⟨?_, pass⟩
    rintro rfl
    cases starts
  · have front : IsDigits whole := by
      refine ⟨?_, pass⟩
      rintro rfl
      obtain rfl : '.' = d := Option.some.inj starts
      exact absurd digit (by decide)
    rw [← List.append_assoc, read, readNumber_point front behind]
    exact .float front behind

theorem isReadAs_placeholder (h : placeholderLength? (body ++ rest) = some body.length) :
    IsReadAs placeholder ('%' :: body) index (placeholder.read ('%' :: body) index) := by
  obtain ⟨kind, others, ⟨text, length⟩ | ⟨name, named, text, length⟩⟩ :=
    placeholderLength?_eq_some h
  · have split : body ++ rest = [kind.letter] ++ others := text
    obtain ⟨rfl, -⟩ := List.append_inj split length
    have found : readPlaceholder ['%', kind.letter] index =
        .ok (.placeholder ⟨.position index, kind⟩) := by
      cases kind <;> rfl
    rw [read, found]
    exact .position kind index
  · have split : body ++ rest = '(' :: (name ++ [')', kind.letter]) ++ others := by
      rw [text]
      simp
    obtain ⟨rfl, -⟩ := List.append_inj split (by rw [length]; simp)
    rw [read, readPlaceholder_name named]
    exact .named kind named

/-! ## Strings -/

/-- A string ends with its quote, and every backslash in it has a character behind it. -/
theorem exists_body_of_quotedLength? (h : quotedLength? quote body = some body.length) :
    ∃ inner, body = inner ++ [quote] ∧ IsStringBody quote inner := by
  fun_induction quotedLength? quote body with
  | case1 => cases h
  | case2 => cases h
  | case3 => cases h
  | case4 c more line ih =>
      obtain ⟨n, found, same⟩ := Option.map_eq_some_iff.mp h
      obtain rfl : n = more.length := by simpa using same
      obtain ⟨inner, rfl, body⟩ := ih found
      exact ⟨'\\' :: c :: inner, rfl, .escape line body⟩
  | case5 more alone escape =>
      obtain rfl : more = [] := by simpa using h
      exact ⟨[], rfl, .nil⟩
  | case6 c more alone escape inside ih =>
      obtain ⟨n, found, same⟩ := Option.map_eq_some_iff.mp h
      obtain rfl : n = more.length := by simpa using same
      obtain ⟨inner, rfl, body⟩ := ih found
      exact ⟨c :: inner, rfl, .plain (plain_of_no_escape alone escape) inside body⟩

end Lexeme

end Shape

theorem resolveEscapes_plain {c : Char} (plain : c ≠ '\\') (rest : List Char) :
    resolveEscapes (c :: rest) = (resolveEscapes rest).map (c :: ·) := by
  rw [resolveEscapes]
  · rintro rfl
    exact absurd rfl plain
  · rintro _ _ rfl
    exact absurd rfl plain

/-- A letter that is known stands for one character. -/
theorem exists_resolved_of_mem {c : Char} (known : c ∈ escapeLetters) :
    ∃ meant, ∀ rest,
      resolveEscapes ('\\' :: c :: rest) = (resolveEscapes rest).map (meant :: ·) := by
  simp only [escapeLetters, List.mem_cons, List.not_mem_nil, or_false] at known
  rcases known with rfl | rfl | rfl | rfl | rfl | rfl
  · exact ⟨'\n', fun rest => by simp only [resolveEscapes]⟩
  · exact ⟨'\t', fun rest => by simp only [resolveEscapes]⟩
  · exact ⟨'\r', fun rest => by simp only [resolveEscapes]⟩
  · exact ⟨'"', fun rest => by simp only [resolveEscapes]⟩
  · exact ⟨'\'', fun rest => by simp only [resolveEscapes]⟩
  · exact ⟨'\\', fun rest => by simp only [resolveEscapes]⟩

theorem resolveEscapes_unknown {c : Char} (unknown : c ∉ escapeLetters) (rest : List Char) :
    resolveEscapes ('\\' :: c :: rest) = .error (.invalidEscape c) := by
  rw [resolveEscapes]
  all_goals
    rintro rfl
    exact absurd (by decide) unknown

/-- In the body of a string, an escape is the only thing that can be wrong. -/
theorem IsStringBody.resolved {quote : Char} {body : List Char} (h : IsStringBody quote body) :
    (∃ content, resolveEscapes body = .ok content) ∨
      ∃ front c rest content, body = front ++ '\\' :: c :: rest ∧ c ∉ escapeLetters ∧
        resolveEscapes front = .ok content ∧ resolveEscapes body = .error (.invalidEscape c) := by
  -- one character stands in front of a body that is resolved, or that has an unknown escape
  have step (taken : List Char) {behind : List Char} {meant : Char}
      (front : ∀ rest, resolveEscapes (taken ++ rest) = (resolveEscapes rest).map (meant :: ·))
      (ih : (∃ content, resolveEscapes behind = .ok content) ∨
        ∃ front c rest content, behind = front ++ '\\' :: c :: rest ∧ c ∉ escapeLetters ∧
          resolveEscapes front = .ok content ∧
          resolveEscapes behind = .error (.invalidEscape c)) :
      (∃ content, resolveEscapes (taken ++ behind) = .ok content) ∨
        ∃ front c rest content, taken ++ behind = front ++ '\\' :: c :: rest ∧
          c ∉ escapeLetters ∧ resolveEscapes front = .ok content ∧
          resolveEscapes (taken ++ behind) = .error (.invalidEscape c) := by
    rcases ih with ⟨content, resolved⟩ | ⟨before, c, rest, content, rfl, unknown, known, refused⟩
    · exact .inl ⟨meant :: content, by rw [front, resolved]; rfl⟩
    · refine .inr ⟨taken ++ before, c, rest, meant :: content, ?_, unknown, ?_, ?_⟩
      · rw [List.append_assoc]
      · rw [front, known]
        rfl
      · rw [front, refused]
        rfl
  induction h with
  | nil => exact .inl ⟨[], rfl⟩
  | @plain c rest backslash _ _ ih => exact step [c] (resolveEscapes_plain backslash) ih
  | @escape c rest _ _ ih =>
      by_cases known : c ∈ escapeLetters
      · obtain ⟨meant, front⟩ := exists_resolved_of_mem known
        exact step ['\\', c] front ih
      · exact .inr ⟨[], c, rest, [], rfl, known, rfl, resolveEscapes_unknown known rest⟩

namespace Shape

variable {shape : Shape} {c quote : Char} {body rest : List Char} {index : Nat}

theorem isReadAs_quoted (quotes : quote = '"' ∨ quote = '\'') (h : IsStringBody quote body) :
    IsReadAs quoted (quote :: (body ++ [quote])) index
      (quoted.read (quote :: (body ++ [quote])) index) := by
  have content : ((quote :: (body ++ [quote])).drop 1).dropLast = body := List.dropLast_concat
  rcases h.resolved with ⟨resolved, known⟩ | ⟨front, c, rest, known, rfl, unknown, first, refused⟩
  · rw [read, readQuoted, content, known]
    exact .text quotes h known
  · rw [read, readQuoted, content, refused]
    exact .refused (.unknownEscape quotes h first unknown)

/-! ## All lexemes -/

/-- Nothing else is found as a lexeme, and it is read like this. -/
theorem isReadAs (h : start? c (body ++ rest) = some (shape, body.length)) :
    IsReadAs shape (c :: body) index (shape.read (c :: body) index) := by
  generalize length : body.length = n at h
  cases starts_of_start? h with
  | mark found =>
      rw [← length] at found
      exact isReadAs_mark found
  | number digit =>
      -- the first digit belongs to the digits in front of a point
      have first : ∃ d ∈ (c :: body).head?, d.isDigit = true := ⟨c, rfl, digit⟩
      refine isReadAs_number false first ?_
      obtain ⟨-, ⟨pass, -⟩ | ⟨whole, fraction, rfl, pass, behind⟩⟩ :=
        numberLength_eq_length length.symm
      · exact .inl (List.forall_mem_cons.mpr ⟨digit, pass⟩)
      · exact .inr ⟨c :: whole, fraction, rfl, List.forall_mem_cons.mpr ⟨digit, pass⟩, behind⟩
  | negative minus digit =>
      obtain rfl := minus
      obtain ⟨stop, extent⟩ := numberLength_eq_length length.symm
      refine isReadAs_number true ?_ ?_
      · cases body with
        | nil =>
            cases rest with
            | nil => cases digit
            | cons d rest =>
                have follows : d.isDigit = true := digit
                rw [stop d rfl] at follows
                cases follows
        | cons d body => exact ⟨d, rfl, digit⟩
      · exact extent.imp_left And.left
  | quoted quotes closed =>
      rw [← length] at closed
      obtain ⟨inner, rfl, body⟩ := exists_body_of_quotedLength? (quotedLength?_eq_length closed).1
      exact isReadAs_quoted quotes body
  | placeholder percent found =>
      obtain rfl := percent
      rw [← length] at found
      exact isReadAs_placeholder found
  | word start =>
      have pass := (run_eq_length_iff.mp length.symm).1
      exact .word (by rw [isName, start, Bool.true_and]; exact List.all_eq_true.mpr pass)

/-- What a reader relies on is so: quotes and backslashes are paired, a placeholder ends with a
letter that asks for a kind, and a number with a point is a binary number. -/
structure Legible (shape : Shape) (text : List Char) (index : Nat) : Prop where
  read : IsReadAs shape text index (shape.read text index)
  quotes : shape = quoted → ∃ quote body, (quote = '"' ∨ quote = '\'') ∧
    text = quote :: (body ++ [quote]) ∧ IsStringBody quote body
  letter : shape = placeholder → ∃ p, shape.read text index = .ok (.placeholder p) ∧
    text.getLast? = some p.kind.letter
  point : shape = number → '.' ∈ text → ∃ x, shape.read text index = .ok (.float x)

theorem not_mem_whole {negative : Bool} {digits : List Char} (pass : IsDigits digits) :
    '.' ∉ signText negative ++ digits := by
  intro here
  rcases List.mem_append.mp here with sign | digit
  · cases negative <;> simp [signText] at sign
  · exact absurd (pass.2 '.' digit) (by decide)

/-- Every lexeme is legible. -/
theorem legible {more : Nat} (h : start? c rest = some (shape, more)) (index : Nat) :
    Legible shape (c :: rest.take more) index := by
  have within : more ≤ rest.length := (start?_append h (.inl rfl) []).1
  have found : start? c (rest.take more ++ rest.drop more) =
      some (shape, (rest.take more).length) := by
    rw [List.take_append_drop, List.length_take_of_le within, h]
  have read : IsReadAs shape (c :: rest.take more) index (shape.read (c :: rest.take more) index) :=
    isReadAs found
  generalize c :: rest.take more = text at read
  refine ⟨read, ?_, ?_, ?_⟩
  · rintro rfl
    generalize quoted.read text index = result at read
    cases read with
    | text quotes inside => exact ⟨_, _, quotes, rfl, inside⟩
    | refused refused =>
        cases refused with
        | unknownEscape quotes body => exact ⟨_, _, quotes, rfl, body⟩
  · rintro rfl
    generalize placeholder.read text index = result at read ⊢
    cases read with
    | position kind => exact ⟨_, rfl, rfl⟩
    | named => exact ⟨_, rfl, by simp [List.getLast?_cons]⟩
    | refused refused => cases refused
  · rintro rfl pointed
    generalize number.read text index = result at read ⊢
    cases read with
    | integer pass => exact absurd pointed (not_mem_whole pass)
    | float => exact ⟨_, rfl⟩
    | refused refused =>
        cases refused with
        | outOfRange pass => exact absurd pointed (not_mem_whole pass)

end Shape

/-! ## Errors of the lexer -/

/-- The errors with which a template is not tokenized: no lexeme begins with a character that is no
blank, or the lexeme that stands there is refused. -/
inductive SyntaxError.IsLexical (input : String) : SyntaxError → Prop where
  | character {before rest : List Char} {c : Char} (split : input.toList = before ++ c :: rest)
      (solid : Text.isBlank c = false) (unknown : Shape.start? c rest = none) :
      IsLexical input (.locate (.unexpectedCharacter c) input (Text.byteLength before))
  | lexeme {before rest : List Char} {c : Char} {shape : Shape} {more : Nat} {fault : SyntaxFault}
      (split : input.toList = before ++ c :: rest)
      (found : Shape.start? c rest = some (shape, more))
      (refused : shape.Refuses (c :: rest.take more) fault) :
      IsLexical input (.locate fault input (Text.byteLength before))

namespace Lexer

variable {l after : Lexer} {e : SyntaxError}

/-- Where no blank stands, the error is one of these. -/
theorem InPlace.isLexical_take (h : l.InPlace) (solid : ∀ c ∈ l.rest.head?, Text.isBlank c = false)
    (read : l.take = (.error e, after)) : e.IsLexical l.input := by
  obtain ⟨before, split, place⟩ := h
  rw [Lexer.take] at read
  split at read
  · cases read
  · rename_i c rest there
    rw [there] at split solid
    rw [place] at read
    split at read
    · rename_i unknown
      cases read
      exact .character split (solid c rfl) unknown
    · rename_i shape more found
      dsimp only at read
      split at read
      · rename_i fault refused
        cases read
        have legible := (Shape.legible found l.placeholders).read
        rw [refused] at legible
        exact .lexeme split found legible.refuses
      · cases read

theorem InPlace.isLexical_next (h : l.InPlace) (read : l.next = (.error e, after)) :
    e.IsLexical l.input := by
  refine h.skipBlanks.isLexical_take ?_ read
  intro c first
  have stop := List.head?_dropWhile_not Text.isBlank l.rest
  have same : (l.rest.dropWhile Text.isBlank).head? = some c := first
  rw [same] at stop
  simpa using stop

/-- So it is with a whole run. -/
theorem InPlace.isLexical_upToEnd (h : l.InPlace) {n : Nat} (run : l.upToEnd n = .error e) :
    e.IsLexical l.input := by
  induction n generalizing l with
  | zero =>
      rw [Lexer.upToEnd] at run
      cases read : l.next.1 with
      | error e' =>
          rw [read] at run
          cases run
          exact h.isLexical_next (Prod.ext read rfl)
      | ok lexeme =>
          rw [read] at run
          cases run
  | succ n ih =>
      rw [Lexer.upToEnd] at run
      split at run
      · rename_i e' after read
        cases run
        exact h.isLexical_next read
      · rename_i lexeme after read
        obtain ⟨-, input, inPlace⟩ := h.next read
        split at run
        · cases run
        · cases others : after.upToEnd n with
          | error e' =>
              rw [others] at run
              cases run
              rw [← input]
              exact ih inPlace others
          | ok more =>
              rw [others] at run
              cases run

end Lexer

theorem isLexical_of_tokenize {input : String} {e : SyntaxError} (h : tokenize input = .error e) :
    e.IsLexical input :=
  (Lexer.inPlace_ofInput input).isLexical_upToEnd h

/-! ## Their wording -/

/-- How the faults that remain are worded at first. -/
def lexicalWordings : List String :=
  ["Unexpected character '", "Integer out of range '", "Invalid escape sequence '\\"]

/-- How the faults that are never met are worded at first. -/
def deadWordings : List String :=
  ["Unterminated string", "Invalid placeholder", "Invalid number '"]

theorem apart_wordings : ∀ live ∈ lexicalWordings, ∀ dead ∈ deadWordings,
    ¬live.toList <+: dead.toList ∧ ¬dead.toList <+: live.toList := by
  decide +kernel

theorem Shape.Refuses.wording {shape : Shape} {text : List Char} {fault : SyntaxFault}
    (h : Refuses shape text fault) :
    ∃ live ∈ lexicalWordings, ∃ rest, fault.message = live ++ rest := by
  cases h with
  | outOfRange => exact ⟨_, .tail _ (.head _), _, String.append_assoc⟩
  | unknownEscape => exact ⟨_, .tail _ (.tail _ (.head _)), _, String.append_assoc⟩

theorem SyntaxError.IsLexical.wording {input : String} {e : SyntaxError} (h : e.IsLexical input) :
    ∃ live ∈ lexicalWordings, ∃ rest, e.fault.message = live ++ rest := by
  cases h with
  | character => exact ⟨_, .head _, _, String.append_assoc⟩
  | lexeme _ _ refused => exact refused.wording

/-- No error that remains is worded like the others. -/
theorem SyntaxError.IsLexical.message_ne {input : String} {e : SyntaxError} (h : e.IsLexical input)
    {dead : String} (other : dead ∈ deadWordings) (rest : String) :
    e.fault.message ≠ dead ++ rest := by
  obtain ⟨live, wording, more, message⟩ := h.wording
  rw [message]
  intro same
  have letters := congrArg String.toList same
  rw [String.toList_append, String.toList_append] at letters
  have front : dead.toList <+: live.toList ++ more.toList := letters ▸ List.prefix_append _ _
  obtain ⟨apart, apart'⟩ := apart_wordings live wording dead other
  exact (List.prefix_or_prefix_of_prefix (List.prefix_append _ _) front).elim apart apart'

/-- Three errors of the lexer are possible: a character with which no lexeme begins, a whole number
that is out of range and an escape that is unknown. No string is left open, no placeholder is
without its letter and no number with a point fails to be a number, as every lexeme that is found is
legible. -/
theorem lexical_errors_are_three (input : String) :
    (∀ e, tokenize input = .error e → e.IsLexical input ∧
      e.fault.message ≠ "Unterminated string" ∧ e.fault.message ≠ "Invalid placeholder" ∧
      ∀ text, e.fault.message ≠ "Invalid number '" ++ text ++ "'") ∧
    ∀ before c rest shape more index, input.toList = before ++ c :: rest →
      Shape.start? c rest = some (shape, more) → shape.Legible (c :: rest.take more) index := by
  refine ⟨fun e refused => ?_, fun _ _ _ _ _ index _ found => Shape.legible found index⟩
  have lexical := isLexical_of_tokenize refused
  refine ⟨lexical, lexical.message_ne (.head _) "", lexical.message_ne (.tail _ (.head _)) "", ?_⟩
  intro text
  rw [String.append_assoc]
  exact lexical.message_ne (.tail _ (.tail _ (.head _))) (text ++ "'")

/-- Each of the three errors is met. -/
theorem lexical_errors_are_three_all :
    (∃ e, tokenize "a # b" = .error e ∧ e.IsLexical "a # b" ∧
      e.fault = .unexpectedCharacter '#') ∧
    (∃ e, tokenize "$.x > 9223372036854775808" = .error e ∧
      e.IsLexical "$.x > 9223372036854775808" ∧
      e.fault = .integerOutOfRange "9223372036854775808") ∧
    ∃ e, tokenize "'\\n\\q'" = .error e ∧ e.IsLexical "'\\n\\q'" ∧
      e.fault = .invalidEscape 'q' := by
  have met (input : String) (e : SyntaxError) (refused : tokenize input = .error e) :
      ∃ e', tokenize input = .error e' ∧ e'.IsLexical input ∧ e'.fault = e.fault :=
    ⟨e, refused, ((lexical_errors_are_three input).1 e refused).1, rfl⟩
  exact ⟨met _ ⟨_, 2, "# b"⟩ rfl, met _ ⟨_, 6, "9223372036854775808"⟩ rfl,
    met _ ⟨_, 0, "'\\n\\q'"⟩ rfl⟩

end DataFilter
