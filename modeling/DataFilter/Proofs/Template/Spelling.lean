import DataFilter.Node.Render
import DataFilter.Proofs.Number.RoundTrip
import DataFilter.Proofs.Template.Lexing
import DataFilter.Proofs.Template.Name
import Mathlib.Data.List.TakeWhile

/-!
# Spellings are read as their tokens

The text of every token that trees are written with is read as that token, wherever it stands: marks
if the next character does not make a longer mark of them, names and numbers if it does not prolong
them, strings and placeholders before any text.
-/

namespace DataFilter

/-! ## Runs of characters -/

section Run

variable {test : Char → Bool} {front rest : List Char}

/-- A run ends where the test fails for the first time. -/
theorem takeWhile_append_of_head (pass : ∀ c ∈ front, test c = true)
    (stop : ∀ c ∈ rest.head?, test c = false) : (front ++ rest).takeWhile test = front := by
  induction front with
  | nil =>
      cases rest with
      | nil => rfl
      | cons c rest => exact List.takeWhile_cons_of_neg (by simp [stop c rfl])
  | cons c front ih =>
      rw [List.cons_append, List.takeWhile_cons_of_pos (pass c List.mem_cons_self),
        ih fun d hd => pass d (List.mem_cons_of_mem c hd)]

theorem dropWhile_append_of_head (pass : ∀ c ∈ front, test c = true)
    (stop : ∀ c ∈ rest.head?, test c = false) : (front ++ rest).dropWhile test = rest := by
  have hsplit := List.takeWhile_append_dropWhile (p := test) (l := front ++ rest)
  rw [takeWhile_append_of_head pass stop] at hsplit
  exact List.append_cancel_left hsplit

theorem Shape.run_append (pass : ∀ c ∈ front, test c = true)
    (stop : ∀ c ∈ rest.head?, test c = false) : Shape.run test (front ++ rest) = front.length := by
  rw [Shape.run, takeWhile_append_of_head pass stop]

end Run

/-! ## Marks -/

namespace Shape

theorem mark?_single {c : Char} {rest : List Char} {token : Token}
    (single : singleMark? c = some token) (alone : ∀ d ∈ rest.head?, pairMark? c d = none) :
    mark? c rest = some (mark token, 0) := by
  have none_found : rest.head?.bind (pairMark? c) = none := by
    cases rest with
    | nil => rfl
    | cons d rest => exact alone d rfl
  rw [mark?, none_found, single]
  rfl

theorem mark?_pair {c d : Char} {token : Token} (pair : pairMark? c d = some token)
    (rest : List Char) : mark? c (d :: rest) = some (mark token, 1) := by
  rw [mark?, List.head?_cons, Option.bind_some, pair]

/-- Letters, digits and the characters that other lexemes begin with begin no mark. -/
theorem mark?_none {c : Char} (h : c.isAlphanum = true ∨ c ∈ ['_', '-', '"', '%'])
    (rest : List Char) : mark? c rest = none := by
  have no_pair (d : Char) : pairMark? c d = none := by
    unfold pairMark?
    split <;> first | rfl | (revert h; decide)
  have no_single : singleMark? c = none := by
    unfold singleMark?
    split <;> first | rfl | (revert h; decide)
  cases rest with
  | nil => rw [mark?, no_single]; rfl
  | cons d rest => rw [mark?, List.head?_cons, Option.bind_some, no_pair, no_single]; rfl

end Shape

theorem isBlank_of_isAlphanum {c : Char} (h : c.isAlphanum = true) : Text.isBlank c = false := by
  rw [isAlphanum_iff_toNat] at h
  simp only [Text.isBlank, Text.blanks, List.contains_eq_mem, List.mem_cons, List.not_mem_nil,
    or_false, decide_eq_false_iff_not]
  intro blank
  omega

namespace Lexer

theorem reads_mark {count : Nat} {c : Char} {rest : List Char} {token : Token}
    (single : Shape.singleMark? c = some token) (solid : Text.isBlank c = false)
    (inside : token ≠ .eof) (alone : ∀ d ∈ rest.head?, Shape.pairMark? c d = none) :
    Reads count [c] [token] rest := by
  refine reads_lexeme (.mark token) solid ?_ rfl inside
  rw [Shape.start?, List.nil_append, Shape.mark?_single single alone]
  rfl

theorem reads_pairMark {count : Nat} {c d : Char} {token : Token}
    (pair : Shape.pairMark? c d = some token) (solid : Text.isBlank c = false)
    (inside : token ≠ .eof) (rest : List Char) : Reads count [c, d] [token] rest := by
  refine reads_lexeme (.mark token) solid ?_ rfl inside
  rw [Shape.start?, List.singleton_append, Shape.mark?_pair pair]
  rfl

end Lexer

/-! ## Words -/

theorem start?_word {c : Char} (h : isNameStart c = true) (rest : List Char) :
    Shape.start? c rest = some (.word, Shape.run isNameChar rest) := by
  have hmark : Shape.mark? c rest = none := by
    refine Shape.mark?_none ?_ rest
    rcases isAlphanum_or_of_isNameStart h with halpha | rfl
    · exact .inl halpha
    · exact .inr List.mem_cons_self
  have hdigit := isDigit_of_isNameStart h
  have other (d : Char) (hd : isNameStart d = false) : c ≠ d := by
    rintro rfl
    rw [h] at hd
    cases hd
  rw [Shape.start?, hmark, hdigit, if_neg (by simp), if_neg (other '-' (by decide)),
    if_neg (by simp [other '"' (by decide), other '\'' (by decide)]), if_neg (other '%' (by decide)),
    if_pos h]

namespace Lexer

/-- A word ends where no character of a name follows. -/
theorem reads_word {count : Nat} {name rest : List Char} (h : isName name = true)
    (stop : ∀ c ∈ rest.head?, isNameChar c = false) : Reads count name [readWord name] rest := by
  cases name with
  | nil => cases h
  | cons c body =>
      obtain ⟨hstart, hbody⟩ := (Bool.and_eq_true _ _).mp h
      have solid : Text.isBlank c = false := by
        rcases isAlphanum_or_of_isNameStart hstart with halpha | rfl
        · exact isBlank_of_isAlphanum halpha
        · decide
      refine reads_lexeme .word solid ?_ rfl ?_
      · rw [start?_word hstart, Shape.run_append (List.all_eq_true.mp hbody) stop]
      · unfold readWord
        split <;> exact Token.noConfusion

end Lexer

/-! ## Numbers -/

namespace Shape

/-- Digits without a point behind them are a whole number. -/
theorem numberLength_digits {digits rest : List Char} (pass : ∀ c ∈ digits, c.isDigit = true)
    (stop : ∀ c ∈ rest.head?, c.isDigit = false ∧ c ≠ '.') :
    numberLength (digits ++ rest) = digits.length := by
  have hrun : run Char.isDigit (digits ++ rest) = digits.length :=
    run_append pass fun c hc => (stop c hc).1
  unfold numberLength
  simp only [hrun, List.drop_left]
  split
  · exact absurd rfl (stop '.' rfl).2
  · rfl

/-- Digits, a point and digits are a binary number. -/
theorem numberLength_point {whole fraction rest : List Char}
    (passWhole : ∀ c ∈ whole, c.isDigit = true) (fractionDigits : IsDigits fraction)
    (stop : ∀ c ∈ rest.head?, c.isDigit = false) :
    numberLength (whole ++ '.' :: (fraction ++ rest)) = (whole ++ '.' :: fraction).length := by
  have hrun : run Char.isDigit (whole ++ '.' :: (fraction ++ rest)) = whole.length :=
    run_append passWhole (by simp)
  have hfraction : run Char.isDigit (fraction ++ rest) = fraction.length :=
    run_append fractionDigits.2 stop
  have nonempty : fraction.length ≠ 0 := fun h =>
    fractionDigits.1 (List.length_eq_zero_iff.mp h)
  unfold numberLength
  simp only [hrun, List.drop_left, hfraction, if_neg nonempty, List.length_append,
    List.length_cons]
  omega

theorem start?_digit {c : Char} (h : c.isDigit = true) (rest : List Char) :
    start? c rest = some (number, numberLength rest) := by
  rw [start?, mark?_none (.inl (by simp [Char.isAlphanum, h])), if_pos h]

theorem start?_minus {c : Char} (h : c.isDigit = true) (rest : List Char) :
    start? '-' (c :: rest) = some (number, numberLength (c :: rest)) := by
  rw [start?, mark?_none (.inr (by decide)), if_neg (by decide), if_pos rfl]
  simp [h]

end Shape

/-- A number with or without a sign is a lexeme if its digits are. -/
theorem start?_number (negative : Bool) {d : Char} {more rest : List Char} (hd : d.isDigit = true)
    (hmore : Shape.numberLength (more ++ rest) = more.length)
    (hall : Shape.numberLength (d :: more ++ rest) = (d :: more).length) :
    ∃ c body, signText negative ++ d :: more = c :: body ∧ Text.isBlank c = false ∧
      Shape.start? c (body ++ rest) = some (.number, body.length) := by
  cases negative with
  | false =>
      refine ⟨d, more, rfl, isBlank_of_isAlphanum (by simp [Char.isAlphanum, hd]), ?_⟩
      rw [Shape.start?_digit hd, hmore]
  | true =>
      refine ⟨'-', d :: more, rfl, by decide, ?_⟩
      rw [← hall]
      exact Shape.start?_minus hd (more ++ rest)

theorem splitSign_signText (negative : Bool) {digits : List Char}
    (h : ∀ c ∈ digits.head?, c.isDigit = true) :
    splitSign (signText negative ++ digits) = (negative, digits) := by
  cases negative with
  | true => rfl
  | false =>
      show splitSign digits = (false, digits)
      unfold splitSign
      split
      · exact absurd (h '-' rfl) (by decide)
      · rfl

/-- The first of some digits is a digit, whatever follows them. -/
theorem IsDigits.head {digits : List Char} (h : IsDigits digits) (rest : List Char) :
    ∀ c ∈ (digits ++ rest).head?, c.isDigit = true := by
  obtain ⟨d, more, rfl⟩ := List.exists_cons_of_ne_nil h.1
  rintro c hc
  obtain rfl : d = c := Option.some.inj hc
  exact h.2 d List.mem_cons_self

theorem readNumber_digits {negative : Bool} {digits : List Char} {n : Integer}
    (hdigits : IsDigits digits)
    (hvalue : (if negative then -(digitsValue digits : Int) else digitsValue digits) = n.toInt) :
    readNumber (signText negative ++ digits) = .ok (.integer n) := by
  have hdrop : digits.dropWhile Char.isDigit = [] := List.dropWhile_eq_nil_iff.mpr hdigits.2
  have hsome : Integer.ofInt? (if negative then -(digitsValue digits : Int)
      else digitsValue digits) = some n := Integer.ofInt?_eq_some_iff.mpr hvalue.symm
  have hhead := hdigits.head []
  rw [List.append_nil] at hhead
  rw [readNumber, splitSign_signText negative hhead]
  simp only [hdrop, hsome]

theorem readNumber_point {negative : Bool} {whole fraction : List Char} (hwhole : IsDigits whole)
    (hfraction : IsDigits fraction) :
    readNumber (signText negative ++ whole ++ '.' :: fraction) =
      .ok (.float (.ofDecimal negative (digitsValue (whole ++ fraction)) (-fraction.length))) := by
  have hdrop : (whole ++ '.' :: fraction).dropWhile Char.isDigit = '.' :: fraction :=
    dropWhile_append_of_head hwhole.2 (by simp)
  have htake : (whole ++ '.' :: fraction).takeWhile Char.isDigit = whole :=
    takeWhile_append_of_head hwhole.2 (by simp)
  have hall : fraction.all Char.isDigit = true := List.all_eq_true.mpr hfraction.2
  rw [readNumber, List.append_assoc, splitSign_signText negative (hwhole.head _)]
  simp [hdrop, htake, hall, hwhole.1, hfraction.1]

namespace Lexer

/-- A whole number ends where neither a digit nor a point follows. -/
theorem reads_digits {count : Nat} {negative : Bool} {digits rest : List Char} {n : Integer}
    (hdigits : IsDigits digits)
    (hvalue : (if negative then -(digitsValue digits : Int) else digitsValue digits) = n.toInt)
    (stop : ∀ c ∈ rest.head?, c.isDigit = false ∧ c ≠ '.') :
    Reads count (signText negative ++ digits) [.integer n] rest := by
  obtain ⟨d, more, rfl⟩ := List.exists_cons_of_ne_nil hdigits.1
  obtain ⟨c, body, hcons, solid, found⟩ := start?_number negative (hdigits.2 d List.mem_cons_self)
    (Shape.numberLength_digits (fun c hc => hdigits.2 c (List.mem_cons_of_mem d hc)) stop)
    (Shape.numberLength_digits hdigits.2 stop)
  rw [hcons]
  refine reads_lexeme .number solid found ?_ Token.noConfusion
  rw [← hcons]
  exact readNumber_digits hdigits hvalue

/-- So is one with its sign. -/
theorem reads_integer {count : Nat} (n : Integer) {rest : List Char}
    (stop : ∀ c ∈ rest.head?, c.isDigit = false ∧ c ≠ '.') :
    Reads count n.render.toList [.integer n] rest := by
  obtain ⟨negative, digits, htext, hdigits, hvalue⟩ := n.render_spec
  rw [htext]
  exact reads_digits hdigits hvalue stop

/-- A binary number ends where no digit follows. -/
theorem reads_float {count : Nat} {x : Binary64} {text rest : List Char}
    (h : Binary64.IsLiteralText x text) (stop : ∀ c ∈ rest.head?, c.isDigit = false) :
    Reads count text [.float x] rest := by
  obtain ⟨negative, whole, fraction, rfl, hwhole, hfraction, rfl⟩ := h
  obtain ⟨d, more, rfl⟩ := List.exists_cons_of_ne_nil hwhole.1
  have length {front : List Char} (pass : ∀ c ∈ front, c.isDigit = true) :
      Shape.numberLength (front ++ '.' :: fraction ++ rest) = (front ++ '.' :: fraction).length := by
    rw [List.append_assoc, List.cons_append]
    exact Shape.numberLength_point pass hfraction stop
  obtain ⟨c, body, hcons, solid, found⟩ := start?_number negative (hwhole.2 d List.mem_cons_self)
    (length fun c hc => hwhole.2 c (List.mem_cons_of_mem d hc)) (length hwhole.2)
  rw [List.append_assoc, List.cons_append, hcons]
  refine reads_lexeme .number solid found ?_ Token.noConfusion
  rw [← hcons, ← List.cons_append, ← List.append_assoc]
  exact readNumber_point hwhole hfraction

end Lexer

/-! ## Strings -/

/-- A character of a string is written as itself, or as an escape that stands for it. -/
theorem literalChar_cases (c : Char) :
    ((literalChar c).toList = [c] ∧ c ≠ '"' ∧ c ≠ '\\') ∨
      ∃ e, (literalChar c).toList = ['\\', e] ∧ e ≠ '\n' ∧
        ∀ rest, resolveEscapes ('\\' :: e :: rest) = (resolveEscapes rest).map (c :: ·) := by
  unfold literalChar
  split
  · exact .inr ⟨'"', rfl, by decide, fun rest => by simp only [resolveEscapes]⟩
  · exact .inr ⟨'\\', rfl, by decide, fun rest => by simp only [resolveEscapes]⟩
  · exact .inr ⟨'n', rfl, by decide, fun rest => by simp only [resolveEscapes]⟩
  · exact .inr ⟨'t', rfl, by decide, fun rest => by simp only [resolveEscapes]⟩
  · exact .inr ⟨'r', rfl, by decide, fun rest => by simp only [resolveEscapes]⟩
  · rename_i hquote hbackslash _ _ _
    exact .inl ⟨by simp, hquote, hbackslash⟩

/-- The content of a string as it is written between the quotes. -/
def escaped (content : List Char) : List Char := content.flatMap fun c => (literalChar c).toList

theorem escaped_cons (c : Char) (content : List Char) :
    escaped (c :: content) = (literalChar c).toList ++ escaped content := rfl

theorem toList_literalText (s : String) :
    (literalText s).toList = '"' :: (escaped s.toList ++ ['"']) := by
  simp [literalText, String.toList_join, escaped, List.flatMap_map]

theorem quotedLength?_escaped (content rest : List Char) :
    Shape.quotedLength? '"' (escaped content ++ '"' :: rest) =
      some ((escaped content).length + 1) := by
  induction content with
  | nil => rfl
  | cons c content ih =>
      rw [escaped_cons]
      rcases literalChar_cases c with ⟨hself, hquote, hbackslash⟩ | ⟨e, hescape, hline, -⟩
      · rw [hself]
        simp [Shape.quotedLength?, hquote, hbackslash, ih]
      · rw [hescape]
        simp [Shape.quotedLength?, hline, ih]

theorem resolveEscapes_escaped (content : List Char) :
    resolveEscapes (escaped content) = .ok content := by
  induction content with
  | nil => rfl
  | cons c content ih =>
      rw [escaped_cons]
      rcases literalChar_cases c with ⟨hself, -, hbackslash⟩ | ⟨e, hescape, -, hresolve⟩
      · rw [hself]
        show resolveEscapes (c :: escaped content) = _
        rw [resolveEscapes, ih]
        · rfl
        all_goals simp [hbackslash]
      · rw [hescape]
        show resolveEscapes ('\\' :: e :: escaped content) = _
        rw [hresolve, ih]
        rfl

namespace Lexer

theorem reads_text {count : Nat} (s : String) (rest : List Char) :
    Reads count (literalText s).toList [.text s] rest := by
  rw [toList_literalText]
  refine reads_lexeme .quoted (by decide) ?_ ?_ Token.noConfusion
  · have hmark : Shape.mark? '"' (escaped s.toList ++ ['"'] ++ rest) = none :=
      Shape.mark?_none (.inr (by decide)) _
    rw [Shape.start?, hmark, List.append_assoc]
    simp [quotedLength?_escaped, Char.isDigit]
  · simp [Shape.read, readQuoted, resolveEscapes_escaped, Except.map]

end Lexer

/-! ## Placeholders -/

theorem toList_render_position (index : Nat) (kind : PlaceholderKind) :
    (Placeholder.render ⟨.position index, kind⟩).toList = ['%', kind.letter] := by
  simp [Placeholder.render]

theorem toList_render_name (name : String) (kind : PlaceholderKind) :
    (Placeholder.render ⟨.name name, kind⟩).toList =
      '%' :: '(' :: (name.toList ++ [')', kind.letter]) := by
  simp [Placeholder.render]

theorem placeholderLength?_name {name : List Char} (h : isName name = true)
    (kind : PlaceholderKind) (rest : List Char) :
    Shape.placeholderLength? ('(' :: (name ++ ')' :: kind.letter :: rest)) =
      some (name.length + 3) := by
  have closing : isNameChar ')' = false := by decide
  have hrun : Shape.run isNameChar (name ++ ')' :: kind.letter :: rest) = name.length :=
    Shape.run_append (isNameChar_of_isName h) (by simpa using closing)
  have hletter : Shape.isKindLetter kind.letter = true := by cases kind <;> rfl
  simp only [Shape.placeholderLength?, hrun, List.take_left, List.drop_left, h, hletter, if_true]

theorem readPlaceholder_name {name : List Char} (h : isName name = true) (kind : PlaceholderKind)
    (index : Nat) :
    readPlaceholder ('%' :: '(' :: (name ++ [')', kind.letter])) index =
      .ok (.placeholder ⟨.name (String.ofList name), kind⟩) := by
  have hlast : ('%' :: '(' :: (name ++ [')', kind.letter])).getLast? = some kind.letter := by
    rw [show '%' :: '(' :: (name ++ [')', kind.letter]) =
      ('%' :: '(' :: (name ++ [')'])) ++ [kind.letter] by simp]
    exact List.getLast?_concat
  have htake : (name ++ [')', kind.letter]).takeWhile (· ≠ ')') = name := by
    refine takeWhile_append_of_head ?_ (by simp)
    intro c hc
    have hname := isNameChar_of_isName h c hc
    rw [decide_eq_true_eq]
    rintro rfl
    exact absurd hname (by decide)
  simp only [readPlaceholder, hlast, Option.bind_some, PlaceholderKind.ofLetter?_letter,
    List.drop_succ_cons, List.drop_zero, htake]

theorem start?_percent (rest : List Char) :
    Shape.start? '%' rest = (Shape.placeholderLength? rest).map (.placeholder, ·) := by
  rw [Shape.start?, Shape.mark?_none (.inr (by decide))]
  simp [Char.isDigit]

namespace Lexer

theorem reads_position {count : Nat} (kind : PlaceholderKind) (rest : List Char) :
    Reads count (Placeholder.render ⟨.position count, kind⟩).toList
      [.placeholder ⟨.position count, kind⟩] rest := by
  rw [toList_render_position]
  refine reads_lexeme .placeholder (by decide) ?_ ?_ Token.noConfusion
  · rw [start?_percent]
    cases kind <;> rfl
  · cases kind <;> rfl

theorem reads_named {count : Nat} {name : String} (kind : PlaceholderKind)
    (h : isName name.toList = true) (rest : List Char) :
    Reads count (Placeholder.render ⟨.name name, kind⟩).toList
      [.placeholder ⟨.name name, kind⟩] rest := by
  rw [toList_render_name]
  refine reads_lexeme .placeholder (by decide) ?_ ?_ Token.noConfusion
  · have hlength := placeholderLength?_name h kind rest
    simp [start?_percent, hlength]
  · have hread := readPlaceholder_name h kind count
    rwa [String.ofList_toList] at hread

end Lexer

end DataFilter
