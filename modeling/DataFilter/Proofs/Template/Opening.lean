import DataFilter.Proofs.Template.Ambiguity
import DataFilter.Proofs.Template.Printing

/-!
# What the text of an operand begins with

An operator in front stands right before its operand, and the lexer may take the first characters of
the operand for a part of the operator's own lexeme: a minus sign is part of a number, a percent
sign is part of a placeholder. `Node.Opens` tells what the text of an operand begins with, as far as
this depends on it.
-/

namespace DataFilter

open Grammar

/-! ## Numbers without a sign -/

/-- A number that is not negative is written as digits. -/
theorem Integer.isDigits_render {n : Integer} (nonneg : 0 ≤ n.toInt) :
    IsDigits n.render.toList ∧ (digitsValue n.render.toList : Int) = n.toInt := by
  obtain ⟨value, hvalue⟩ := Int.eq_ofNat_of_zero_le nonneg
  have text : n.render.toList = Nat.toDigits 10 value := by
    show (toString n.toInt).toList = _
    rw [hvalue]
    exact toList_toString value
  rw [text, digitsValue_toDigits, hvalue]
  exact ⟨isDigits_toDigits value, rfl⟩

/-- Any other number begins with its sign. -/
theorem Integer.render_of_neg {n : Integer} (negative : n.toInt < 0) :
    ∃ digits, n.render.toList = '-' :: digits := by
  obtain ⟨sign, digits, htext, -, hvalue⟩ := n.render_spec
  cases sign with
  | true => exact ⟨digits, htext⟩
  | false =>
      have : (digitsValue digits : Int) = n.toInt := hvalue
      omega

/-- Behind a minus sign, the digits of a number are those of its opposite. -/
theorem written_opposite {n opposite : Integer} (nonneg : 0 ≤ n.toInt)
    (h : Integer.ofInt? (-n.toInt) = some opposite) (first : Nat) :
    Written first ('-' :: n.render.toList) 0 [.integer opposite] where
  head := rfl
  nonempty := by simp
  count := rfl
  reads := by
    intro rest hrest
    obtain ⟨hdigits, hvalue⟩ := n.isDigits_render nonneg
    show Lexer.Reads first (signText true ++ n.render.toList) _ rest
    refine Lexer.reads_digits hdigits ?_ hrest.number
    rw [if_pos rfl, hvalue]
    exact (Integer.ofInt?_eq_some_iff.mp h).symm

/-- A binary number without a sign is written as digits, a point and digits, and its opposite with a
minus sign in front. -/
theorem Binary64.unsigned_literal (units : Nat) (magnitude : IsMagnitude units) :
    (∃ whole fraction, (Value.float (finite false units magnitude)).renderLiteral.toList =
      whole ++ '.' :: fraction ∧ IsDigits whole) ∧
    (Value.float (finite true units magnitude)).renderLiteral.toList =
      '-' :: (Value.float (finite false units magnitude)).renderLiteral.toList := by
  have opposite : (Value.float (finite true units magnitude)).renderLiteral.toList =
      '-' :: (Value.float (finite false units magnitude)).renderLiteral.toList := by
    rw [toList_renderLiteral, toList_renderLiteral]
    rfl
  refine ⟨?_, opposite⟩
  obtain ⟨negative, whole, fraction, htext, hwhole, -, -⟩ :=
    isLiteralText_renderLiteral (x := finite true units magnitude) rfl
  rw [opposite, List.append_assoc] at htext
  cases negative with
  | true => exact ⟨whole, fraction, (List.cons.inj htext).2, hwhole⟩
  | false =>
      obtain ⟨d, more, rfl⟩ := List.exists_cons_of_ne_nil hwhole.1
      obtain rfl : '-' = d := (List.cons.inj htext).1
      exact absurd (hwhole.2 '-' List.mem_cons_self) (by decide)

/-! ## Placeholders -/

/-- A placeholder goes on with a parenthesis or a letter. -/
theorem Shape.of_placeholderLength? {c : Char} {rest : List Char}
    (h : (placeholderLength? (c :: rest)).isSome = true) :
    c = '(' ∨ c = 's' ∨ c = 'd' ∨ c = 'f' := by
  unfold placeholderLength? at h
  split at h
  · rename_i same
    exact .inl (List.cons.inj same).1
  · rename_i same
    obtain ⟨rfl, rfl⟩ := List.cons.inj same
    split at h
    · rename_i letter
      simpa [isKindLetter, or_assoc] using Or.inr letter
    · cases h
  · cases h

/-- A parenthesis that a name does not fill up is no part of a placeholder. -/
theorem Shape.placeholderLength?_group {front : List Char} {c : Char} (back : List Char)
    (pass : ∀ d ∈ front, isNameChar d = true) (stop : isNameChar c = false) (opened : c ≠ ')') :
    placeholderLength? ('(' :: (front ++ c :: back)) = none := by
  have hrun : run isNameChar (front ++ c :: back) = front.length :=
    run_append pass (by simpa using stop)
  simp only [placeholderLength?, hrun, List.drop_left]
  split
  · rename_i same
    exact absurd (List.cons.inj same).1 opened
  · rfl

/-! ## Beginnings -/

namespace Node

/-- The text of the tree as an operand. -/
def operandText (tree : Node) : List Char := (grouped tree.needsGrouping tree.render).toList

section Text

variable {tree left right : Node} {op : Operator}

theorem operandText_of_plain (plain : tree.needsGrouping = false) :
    tree.operandText = tree.render.toList := by
  rw [operandText, grouped, plain]
  rfl

theorem operandText_of_grouped (needed : tree.needsGrouping = true) :
    tree.operandText = '(' :: (tree.render.toList ++ [')']) := by
  rw [operandText, grouped, needed]
  simp

theorem operandText_before :
    (before op right).operandText = op.symbol.toList ++ right.operandText := by
  rw [operandText_of_plain rfl]
  simp [before, render, operandText]

theorem toList_render_between : (between left op right).render.toList =
    left.operandText ++ ' ' :: (op.symbol.toList ++ ' ' :: right.operandText) := by
  simp [between, render, operandText]

theorem toList_render_after :
    (after left op).render.toList = left.operandText ++ (afterSymbol op).toList := by
  simp [after, render, operandText]

end Text

/-- What the text of an operand begins with. -/
inductive Opens : Node → List Char → Prop where
  /-- A number without a sign, which is another number behind a minus sign: digits, and behind them
  nothing or a point. -/
  | number {v : Value} {text : List Char} (digits rest : List Char) (split : text = digits ++ rest)
      (isDigits : IsDigits digits) (point : ∀ c ∈ rest.head?, c = '.') (a : Atom)
      (opposite : v.opposite?.map literal = some a.node)
      (written : ∀ first, Written first ('-' :: text) 0 [a.token]) : Opens (.literal v) text
  /-- A literal that looks like a name. -/
  | word {v : Value} {word : String}
      (known : (v, word) = (.boolean true, "true") ∨ (v, word) = (.boolean false, "false") ∨
        (v, word) = (.null, "null")) : Opens (.literal v) word.toList
  /-- The name of a null test, which no template has in front of an operand. -/
  | nullTest {tree : Node} (rest : List Char) : Opens tree ('I' :: 'S' :: ' ' :: rest)
  /-- A parenthesis, with an operand behind it that is not the last thing in it. -/
  | group {tree left : Node} {text : List Char} (inside : Opens left text) (rest : List Char) :
      Opens tree ('(' :: (text ++ ' ' :: rest))
  /-- Any other mark. -/
  | mark {tree : Node} {c : Char} (rest : List Char)
      (other : isNameChar c = false ∧ c ≠ '(' ∧ c ≠ ')') : Opens tree (c :: rest)

theorem opens_integer (n : Integer) : Opens (.literal (.integer n)) n.render.toList := by
  by_cases nonneg : 0 ≤ n.toInt
  · have bound := n.upper
    have negated : Integer.ofInt? (-n.toInt) = some ⟨-n.toInt, by omega, by omega⟩ :=
      Integer.ofInt?_eq_some_iff.mpr rfl
    refine .number _ [] (List.append_nil _).symm (n.isDigits_render nonneg).1 (by simp)
      (.integer _) ?_ (written_opposite nonneg negated)
    simp [Value.opposite?, nonneg, negated, Atom.node]
  · obtain ⟨digits, htext⟩ := n.render_of_neg (Int.not_le.mp nonneg)
    rw [htext]
    exact .mark digits (by decide)

theorem opens_float {x : Binary64} (h : x.isFinite = true) :
    Opens (.literal (.float x)) (Value.float x).renderLiteral.toList := by
  cases x with
  | nan => cases h
  | infinite negative => cases h
  | finite negative units magnitude =>
      obtain ⟨⟨whole, fraction, htext, hwhole⟩, opposite⟩ :=
        Binary64.unsigned_literal units magnitude
      cases negative with
      | true =>
          rw [opposite]
          exact .mark _ (by decide)
      | false =>
          refine .number whole _ htext hwhole (by simp) (.float (.finite true units magnitude))
            rfl ?_
          intro first
          rw [← opposite]
          exact written_float rfl first

theorem opens_atom {a : Atom} (spelled : a.HasSpelling) : Opens a.node a.node.render.toList := by
  cases a with
  | integer n => exact opens_integer n
  | float x => exact opens_float spelled
  | text s =>
      have text : (Atom.text s).node.render.toList = '"' :: (escaped s.toList ++ ['"']) :=
        toList_literalText s
      rw [text]
      exact .mark _ (by decide)
  | boolean b =>
      cases b with
      | true => exact .word (.inl rfl)
      | false => exact .word (.inr (.inl rfl))
  | null => exact .word (.inr (.inr rfl))
  | placeholder p =>
      have text : ∃ rest, (Atom.placeholder p).node.render.toList = '%' :: rest := by
        obtain ⟨key, kind⟩ := p
        cases key with
        | position index => exact ⟨_, toList_render_position index kind⟩
        | name name => exact ⟨_, toList_render_name name kind⟩
      obtain ⟨rest, text⟩ := text
      rw [text]
      exact .mark _ (by decide)

/-- An operator in front begins with a mark, if it is no null test. -/
theorem opens_before (op : Operator) (operand : Node) (rest : List Char) :
    Opens (.before op operand) (op.symbol.toList ++ rest) := by
  cases op with
  | isNull => exact .nullTest _
  | isNotNull => exact .nullTest _
  | _ => exact .mark _ (by decide)

theorem opens_scope {inTest : Bool} {tree scope : Node} (path : IsScopePath inTest scope)
    {rest : List Char} : Opens tree (scope.render.toList ++ rest) := by
  obtain ⟨anchor, names, -, -, htext⟩ := path.exists_path
  rw [htext]
  exact .mark _ (by cases anchor <;> decide)

/-- Whatever a program builds, its text as an operand begins with one of these. -/
theorem HasSpelling.opens {inTest : Bool} {tree : Node} (h : tree.HasSpelling inTest) :
    Opens tree tree.operandText := by
  induction h with
  | atom a spelled =>
      rw [operandText_of_plain (by cases a <;> rfl)]
      exact opens_atom spelled
  | @scope _ scope path =>
      rw [operandText_of_plain (by cases path <;> rfl), ← List.append_nil scope.render.toList]
      exact opens_scope path
  | @field _ scope name path identifier =>
      rw [operandText_of_plain rfl]
      have text : (Node.field scope name).render.toList =
          scope.render.toList ++ '.' :: name.toList := by simp [render]
      rw [text]
      exact opens_scope path
  | @collection _ parent predicate path test ih =>
      rw [operandText_of_plain rfl, render, String.append_assoc, String.append_assoc,
        String.toList_append]
      exact opens_scope path
  | @before _ operand op h ih =>
      rw [operandText_before]
      exact opens_before op operand _
  | between hleft op hright ihl ihr =>
      rw [operandText_of_grouped rfl, toList_render_between, List.append_assoc, List.cons_append]
      exact .group ihl _
  | after h op ih =>
      have blank : ∃ rest, (afterSymbol op).toList = ' ' :: rest := by
        cases op <;> exact ⟨_, rfl⟩
      obtain ⟨rest, blank⟩ := blank
      rw [operandText_of_grouped rfl, toList_render_after, blank, List.append_assoc,
        List.cons_append]
      exact .group ih _

/-! ## Behind an operator -/

section

variable {tree : Node} {text : List Char}

/-- A digit is that of a number. -/
theorem Opens.of_digit (h : Opens tree text) (rest : List Char)
    (digit : (text ++ rest).head?.any Char.isDigit = true) :
    ∃ (v : Value) (a : Atom), tree = .literal v ∧ v.opposite?.map literal = some a.node ∧
      ∀ first, Written first ('-' :: text) 0 [a.token] := by
  cases h with
  | number digits rest split isDigits point a opposite written =>
      exact ⟨_, a, rfl, opposite, written⟩
  | word known => rcases known with known | known | known <;> cases known <;> cases digit
  | nullTest rest => cases digit
  | group inside rest => cases digit
  | @mark _ c rest other =>
      have : c.isDigit = true := digit
      rw [isDigit_of_isNameChar other.1] at this
      cases this

/-- The first character that is no part of a name does not close a parenthesis. -/
theorem Opens.mark_ne_closeParen (h : Opens tree text) (rest : List Char) :
    ∃ front c back, text ++ ' ' :: rest = front ++ c :: back ∧
      (∀ d ∈ front, isNameChar d = true) ∧ isNameChar c = false ∧ c ≠ ')' := by
  cases h with
  | number digits fraction split isDigits point a opposite written =>
      have pass : ∀ d ∈ digits, isNameChar d = true := by
        intro d hd
        simp [isNameChar, Char.isAlphanum, isDigits.2 d hd]
      subst split
      cases fraction with
      | nil => exact ⟨digits, ' ', rest, by simp, pass, by decide⟩
      | cons c fraction =>
          obtain rfl := point c rfl
          exact ⟨digits, '.', fraction ++ ' ' :: rest, by simp, pass, by decide⟩
  | @word v word known =>
      refine ⟨word.toList, ' ', rest, rfl, isNameChar_of_isName ?_, by decide⟩
      rcases known with known | known | known <;> cases known <;> decide
  | nullTest others =>
      exact ⟨['I', 'S'], ' ', _, rfl, isNameChar_of_isName (by decide), by decide⟩
  | group inside others => exact ⟨[], '(', _, rfl, by simp, by decide⟩
  | @mark _ c others other => exact ⟨[], c, _, rfl, by simp, other.1, other.2.2⟩

/-- Behind a percent sign only the literal `false` is taken for a part of a placeholder. -/
theorem Opens.of_placeholder (h : Opens tree text) (rest : List Char)
    (found : (Shape.placeholderLength? (text ++ rest)).isSome = true) :
    text = ['f', 'a', 'l', 's', 'e'] := by
  cases h with
  | number digits fraction split isDigits point a opposite written =>
      obtain ⟨d, more, rfl⟩ := List.exists_cons_of_ne_nil isDigits.1
      subst split
      have digit := isDigits.2 d List.mem_cons_self
      rcases Shape.of_placeholderLength? found with rfl | rfl | rfl | rfl <;> cases digit
  | @word v word known =>
      rcases known with known | known | known <;> cases known
      · cases found
      · rfl
      · cases found
  | nullTest others => cases found
  | group inside others =>
      obtain ⟨front, c, back, split, pass, stop, opened⟩ :=
        inside.mark_ne_closeParen (others ++ rest)
      have none_found := Shape.placeholderLength?_group back pass stop opened
      rw [← split] at none_found
      rw [List.cons_append, List.append_assoc, List.cons_append, none_found] at found
      cases found
  | mark others other =>
      rcases Shape.of_placeholderLength? found with rfl | rfl | rfl | rfl
      · exact absurd rfl other.2.1
      all_goals exact absurd other.1 (by decide)

end

end Node

end DataFilter
