import DataFilter.Proofs.Template.Printing

/-!
# What a text is lexed to

`Lexer.Reads` says that a text is read as some tokens. Here it is known that a text was lexed to its
end, and the question is to which tokens. Lexing is a function of the text and of the placeholders
before it, so a front that is read as some tokens can be taken off, and where nothing is known the
first character tells what the first token can be.

That is what shows an operator in the place of another one: between operands and behind them only
comparisons, `&&` and `||` are marks that a condition can go on with, and in front of an operand
only `!` and the sign of a number.
-/

namespace DataFilter

open Grammar

namespace Lexer

/-! ## Lexing to the end -/

/-- With `count` placeholders read before it, the text is lexed to its end as these tokens. -/
def LexesTo (count : Nat) (text : List Char) (tokens : List Token) : Prop :=
  ∃ l after position, l.rest = text ∧ l.placeholders = count ∧ Scans l tokens after ∧
    after.next.1 = .ok ⟨.eof, position⟩

/-- A run to the end begins with any other run from the same state. -/
theorem Scans.cut {l middle after : Lexer} {front tokens : List Token} {position : Nat}
    (h : Scans l front middle) (h' : Scans l tokens after)
    (ends : after.next.1 = .ok ⟨.eof, position⟩) :
    ∃ back, tokens = front ++ back ∧ Scans middle back after := by
  induction h generalizing tokens with
  | stay => exact ⟨tokens, rfl, h'⟩
  | step read inside _ ih =>
      cases h' with
      | stay =>
          rw [read] at ends
          cases ends
          exact absurd rfl inside
      | step read' _ more' =>
          rw [read] at read'
          cases read'
          obtain ⟨back, rfl, behind⟩ := ih more'
          exact ⟨back, rfl, behind⟩

namespace LexesTo

variable {count : Nat} {text front rest : List Char} {tokens : List Token}

/-- A front that is read as some tokens comes first. -/
theorem after (h : LexesTo count (front ++ rest) tokens) {first : List Token}
    (reads : Reads count front first rest) :
    ∃ more, tokens = first ++ more ∧ LexesTo (count + positionals first) rest more := by
  obtain ⟨l, final, position, hrest, hcount, scans, ends⟩ := h
  obtain ⟨middle, reading, hmiddle, hplaceholders⟩ := reads l hrest hcount
  obtain ⟨more, rfl, behind⟩ := reading.cut scans ends
  exact ⟨more, rfl, middle, final, position, hmiddle, hplaceholders, behind, ends⟩

/-- A mark that may stand before anything comes first. -/
theorem mark {c : Char} (h : LexesTo count (c :: rest) tokens) {token : Token}
    (lone : (c, token) ∈ loneMarks) : ∃ more, tokens = token :: more ∧ LexesTo count rest more := by
  have reads := (reads_nil count rest).mark lone
  obtain ⟨more, rfl, behind⟩ := h.after reads
  have none_used : positionals [token] = 0 := by
    simp only [loneMarks, List.mem_cons, Prod.mk.injEq, List.not_mem_nil, or_false] at lone
    rcases lone with ⟨-, rfl⟩ | ⟨-, rfl⟩ | ⟨-, rfl⟩ | ⟨-, rfl⟩ | ⟨-, rfl⟩ | ⟨-, rfl⟩ | ⟨-, rfl⟩ |
      ⟨-, rfl⟩ | ⟨-, rfl⟩ <;> rfl
  rw [none_used] at behind
  exact ⟨more, rfl, behind⟩

/-- A blank in front is skipped. -/
theorem blank {c : Char} (h : LexesTo count (c :: text) tokens) (blank : Text.isBlank c = true) :
    LexesTo count text tokens := by
  obtain ⟨l, final, position, hrest, hcount, scans, ends⟩ := h
  let behind : Lexer := { l with rest := text, position := l.position + c.utf8Size }
  have same : l.next = behind.next := by
    have hskip : l.skipBlanks = behind.skipBlanks := by
      simp only [skipBlanks, hrest, behind, List.dropWhile_cons, blank, if_true,
        List.takeWhile_cons, Text.byteLength, Nat.add_assoc]
    rw [next, hskip, next]
  cases scans with
  | stay =>
      rw [same] at ends
      exact ⟨behind, behind, position, rfl, hcount, .stay behind, ends⟩
  | step read inside more =>
      exact ⟨behind, final, position, rfl, hcount, .step (same.symm.trans read) inside more, ends⟩

/-- The first character tells the shape of the first token. -/
theorem first {c : Char} {token : Token} (h : LexesTo count (c :: text) (token :: tokens))
    (solid : Text.isBlank c = false) :
    ∃ shape more, Shape.start? c text = some (shape, more) ∧
      shape.read (c :: text.take more) count = .ok token ∧
      LexesTo (count + token.positionalCount) (text.drop more) tokens := by
  obtain ⟨l, final, position, hrest, rfl, scans, ends⟩ := h
  have hskip : l.skipBlanks = l := skipBlanks_eq_self hrest solid
  cases scans with
  | @step _ middle _ lexeme _ read inside behind =>
      rw [next, hskip, take, hrest] at read
      cases start : Shape.start? c text with
      | none =>
          simp only [start] at read
          cases read
      | some found =>
          obtain ⟨shape, more⟩ := found
          simp only [start] at read
          cases reading : shape.read (c :: text.take more) l.placeholders with
          | error fault =>
              rw [reading] at read
              cases read
          | ok token =>
              rw [reading] at read
              cases read
              refine ⟨shape, more, rfl, reading, _, final, position, ?_, ?_, behind, ends⟩
              · show l.rest.drop (more + 1) = _
                rw [hrest]
                rfl
              · rfl

end LexesTo

/-- A text that is tokenized is lexed to its end. -/
theorem upToEnd_lexes {n : Nat} {l : Lexer} {lexemes : List Lexeme}
    (h : l.upToEnd n = .ok lexemes) (bound : l.rest.length ≤ n) :
    ∃ tokens after position, lexemes.map Lexeme.token = tokens ++ [.eof] ∧ Scans l tokens after ∧
      after.next.1 = .ok ⟨.eof, position⟩ := by
  induction n generalizing l lexemes with
  | zero =>
      obtain ⟨position, hnext⟩ := next_nil (List.length_eq_zero_iff.mp (Nat.le_zero.mp bound))
      rw [upToEnd, hnext] at h
      cases h
      exact ⟨[], l, position, rfl, .stay l, hnext⟩
  | succ n ih =>
      rw [upToEnd] at h
      split at h
      · cases h
      · rename_i lexeme middle hnext
        split at h
        · rename_i heof
          cases h
          obtain ⟨token, position⟩ := lexeme
          cases heof
          exact ⟨[], l, position, rfl, .stay l, by rw [hnext]⟩
        · rename_i inside
          cases hrun : upToEnd n middle with
          | error e =>
              rw [hrun] at h
              cases h
          | ok more =>
              rw [hrun] at h
              cases h
              have shorter := length_next_lt hnext inside
              obtain ⟨tokens, after, position, hmap, scans, ends⟩ := ih hrun (by omega)
              refine ⟨lexeme.token :: tokens, after, position, ?_, .step hnext inside scans, ends⟩
              rw [List.map_cons, hmap, List.cons_append]

end Lexer

/-- The tokens of a template are what its text is lexed to, with the end behind them. -/
theorem lexesTo_of_tokenize {input : String} {lexemes : List Lexeme}
    (h : tokenize input = .ok lexemes) :
    ∃ tokens, lexemes.map Lexeme.token = tokens ++ [.eof] ∧
      Lexer.LexesTo 0 input.toList tokens := by
  obtain ⟨tokens, after, position, hmap, scans, ends⟩ := Lexer.upToEnd_lexes h (Nat.le_refl _)
  exact ⟨tokens, hmap, Lexer.ofInput input, after, position, rfl, rfl, scans, ends⟩

/-! ## Marks -/

namespace Lexer.LexesTo

variable {count : Nat} {text rest : List Char} {c : Char} {token : Token} {tokens : List Token}

/-- A character that starts no lexeme is not lexed. -/
theorem start_ne_none (h : LexesTo count (c :: text) (token :: tokens))
    (solid : Text.isBlank c = false) : Shape.start? c text ≠ none := by
  obtain ⟨shape, more, start, -⟩ := h.first solid
  rw [start]
  exact nofun

/-- The mark of two characters is taken if it is there. -/
theorem pairMark {d : Char} (h : LexesTo count (c :: d :: rest) (token :: tokens)) {mark : Token}
    (pair : Shape.pairMark? c d = some mark) (solid : Text.isBlank c = false)
    (plain : mark.positionalCount = 0) : token = mark ∧ LexesTo count rest tokens := by
  obtain ⟨shape, more, start, read, behind⟩ := h.first solid
  rw [Shape.start?, Shape.mark?_pair pair] at start
  cases start
  cases read
  rw [plain] at behind
  exact ⟨rfl, behind⟩

/-- Else it is the mark of one character. -/
theorem singleMark (h : LexesTo count (c :: rest) (token :: tokens)) {mark : Token}
    (single : Shape.singleMark? c = some mark) (solid : Text.isBlank c = false)
    (plain : mark.positionalCount = 0) :
    (token = mark ∧ LexesTo count rest tokens) ∨
      ∃ d ∈ rest.head?, Shape.pairMark? c d = some token := by
  by_cases alone : ∀ d ∈ rest.head?, Shape.pairMark? c d = none
  · obtain ⟨shape, more, start, read, behind⟩ := h.first solid
    rw [Shape.start?, Shape.mark?_single single alone] at start
    cases start
    cases read
    rw [plain] at behind
    exact .inl ⟨rfl, behind⟩
  · simp only [not_forall] at alone
    obtain ⟨d, head, paired⟩ := alone
    obtain ⟨found, pair⟩ := Option.ne_none_iff_exists'.mp paired
    obtain ⟨shape, more, start, read, -⟩ := h.first solid
    have marked : Shape.mark? c rest = some (.mark found, 1) := by
      rw [Shape.mark?, Option.mem_def.mp head, Option.bind_some, pair]
    rw [Shape.start?, marked] at start
    cases start
    cases read
    exact .inr ⟨d, head, pair⟩

end Lexer.LexesTo

/-! ## Operators between operands and behind them -/

/-- The characters of an operator's spelling. -/
def Operator.characters : Operator → List Char
  | equal => ['=', '=']
  | notEqual => ['!', '=']
  | lessThan => ['<']
  | lessThanEqual => ['<', '=']
  | greaterThan => ['>']
  | greaterThanEqual => ['>', '=']
  | add | positive => ['+']
  | subtract | negative => ['-']
  | multiply => ['*']
  | divide => ['/']
  | modulo => ['%']
  | leftShift => ['<', '<']
  | rightShift => ['>', '>']
  | and => ['&', '&']
  | or => ['|', '|']
  | not => ['!']
  | isNull => ['I', 'S', ' ', 'N', 'U', 'L', 'L']
  | isNotNull => ['I', 'S', ' ', 'N', 'O', 'T', ' ', 'N', 'U', 'L', 'L']

theorem Operator.toList_symbol (op : Operator) : op.symbol.toList = op.characters := by
  cases op <;> rfl

/-- The mark that a condition goes on with: the sign of a comparison, `&&` or `||`. -/
def Operator.joint? : Operator → Option Token
  | .equal => some .equalEqual
  | .notEqual => some .notEqual
  | .lessThan => some .less
  | .lessThanEqual => some .lessEqual
  | .greaterThan => some .greater
  | .greaterThanEqual => some .greaterEqual
  | .and => some .andAnd
  | .or => some .orOr
  | _ => none

/-- No condition goes on with these tokens: the first one neither joins nor closes anything, or it
is the sign of a comparison and behind it stands the same one. -/
def IsStuck : List Token → Prop
  | [] => False
  | token :: more =>
    strength token = 0 ∧ token ≠ .closeParen ∨
      strength token = 3 ∧ ∀ next ∈ more.head?, next = token

section Border

variable {count : Nat} {c : Char} {rest : List Char} {token : Token} {tokens : List Token}

/-- The marks of one character that operators are written with. -/
def loneSigns : List Char := ['<', '>', '!', '*']

theorem isBlank_of_loneSigns {mark : Char} (lone : mark ∈ loneSigns) :
    Text.isBlank mark = false := by
  simp only [loneSigns, List.mem_cons, List.not_mem_nil, or_false] at lone
  rcases lone with rfl | rfl | rfl | rfl <;> decide

theorem pairMark?_border {mark : Char} (lone : mark ∈ loneSigns) (border : c = ' ' ∨ c = ')') :
    Shape.pairMark? mark c = none := by
  simp only [loneSigns, List.mem_cons, List.not_mem_nil, or_false] at lone
  rcases border with rfl | rfl <;> rcases lone with rfl | rfl | rfl | rfl <;> rfl

/-- A mark of one character with an end behind it is read as such. -/
theorem Lexer.LexesTo.sign {mark : Char} {found : Token}
    (h : LexesTo count (mark :: c :: rest) (token :: tokens)) (lone : mark ∈ loneSigns)
    (border : c = ' ' ∨ c = ')') (single : Shape.singleMark? mark = some found)
    (plain : found.positionalCount = 0) :
    token = found ∧ LexesTo count (c :: rest) tokens := by
  rcases h.singleMark single (isBlank_of_loneSigns lone) plain with
    alone | ⟨d, head, pair⟩
  · exact alone
  · obtain rfl : c = d := Option.some.inj head
    rw [pairMark?_border lone border] at pair
    cases pair

/-- A sign that is written twice is read twice. -/
theorem Lexer.LexesTo.isStuck_of_twice {mark : Char} {found : Token}
    (h : LexesTo count (mark :: mark :: c :: rest) (token :: tokens)) (lone : mark ∈ loneSigns)
    (border : c = ' ' ∨ c = ')') (single : Shape.singleMark? mark = some found)
    (apart : Shape.pairMark? mark mark = none) (plain : found.positionalCount = 0)
    (strong : strength found = 3) : IsStuck (token :: tokens) := by
  rcases h.singleMark single (isBlank_of_loneSigns lone) plain with
    ⟨rfl, more⟩ | ⟨d, head, pair⟩
  · refine .inr ⟨strong, ?_⟩
    intro next head
    obtain ⟨others, rfl⟩ := List.head?_eq_some_iff.mp head
    exact (more.sign lone border single plain).1
  · obtain rfl : mark = d := Option.some.inj head
    rw [apart] at pair
    cases pair

/-- The name of a null test is read as a name. -/
theorem Lexer.LexesTo.nullTest
    (h : LexesTo count ('I' :: 'S' :: ' ' :: rest) (token :: tokens)) :
    token = .identifier "IS" := by
  obtain ⟨shape, length, start, read, -⟩ := h.first (by decide)
  cases start
  cases read
  rfl

end Border

/-- An operator behind an operand is a mark that goes on, or the tokens are stuck at it. -/
theorem Lexer.LexesTo.symbol {count : Nat} {op : Operator} {c : Char} {rest : List Char}
    {token : Token} {tokens : List Token}
    (h : LexesTo count (' ' :: (op.symbol.toList ++ c :: rest)) (token :: tokens))
    (border : c = ' ' ∨ c = ')') :
    (op.joint? = some token ∧ LexesTo count (c :: rest) tokens) ∨ IsStuck (token :: tokens) := by
  have behind := h.blank (by decide)
  rw [Operator.toList_symbol] at behind
  cases op with
  | equal | notEqual | lessThanEqual | greaterThanEqual | and | or =>
      obtain ⟨rfl, more⟩ := behind.pairMark rfl (by decide) rfl
      exact .inl ⟨rfl, more⟩
  | lessThan | greaterThan =>
      obtain ⟨rfl, more⟩ := behind.sign (by decide) border rfl rfl
      exact .inl ⟨rfl, more⟩
  | multiply | not =>
      obtain ⟨rfl, -⟩ := behind.sign (by decide) border rfl rfl
      exact .inr (.inl (by decide))
  | leftShift | rightShift =>
      exact .inr (behind.isStuck_of_twice (by decide) border rfl rfl rfl rfl)
  | isNull | isNotNull =>
      obtain rfl := behind.nullTest
      exact .inr (.inl (by decide))
  | add | positive => exact absurd rfl (behind.start_ne_none (by decide))
  | divide => exact absurd rfl (behind.start_ne_none (by decide))
  | subtract | negative | modulo =>
      rcases border with rfl | rfl <;> exact absurd rfl (behind.start_ne_none (by decide))

/-! ## Operators in front of an operand -/

/-- The tokens that a condition without `&&` and `||` begins with. -/
def begins : Token → Bool
  | .integer _ | .float _ | .text _ | .boolean _ | .null | .placeholder _ => true
  | .dollar | .atSign | .bang | .openParen => true
  | _ => false

theorem operand_begins (d : Derivation .operand) :
    ∃ token more, d.tokens = token :: more ∧ begins token = true := by
  cases d with
  | atom a => exact ⟨a.token, [], rfl, by cases a <;> rfl⟩
  | field anchor path named => exact ⟨_, _, rfl, by cases anchor <;> rfl⟩
  | test anchor path named filter => exact ⟨_, _, rfl, by cases anchor <;> rfl⟩

theorem unary_begins (d : Derivation .unary) :
    ∃ token more, d.tokens = token :: more ∧ begins token = true := by
  cases d with
  | not operand => exact ⟨_, _, rfl, rfl⟩
  | group condition => exact ⟨_, _, rfl, rfl⟩
  | plain comparison =>
      cases comparison with
      | single operand =>
          obtain ⟨token, more, spelled, starts⟩ := operand_begins operand
          exact ⟨token, more, spelled, starts⟩
      | pair left sign right =>
          obtain ⟨token, more, spelled, starts⟩ := operand_begins left
          exact ⟨token, more ++ sign.token :: right.tokens, by simp [spelled], starts⟩

/-- No mark of two characters begins a condition. -/
theorem begins_of_pairMark {c d : Char} {token : Token} (h : Shape.pairMark? c d = some token) :
    begins token = false := by
  unfold Shape.pairMark? at h
  split at h <;> cases h <;> rfl

section Beginnings

variable {count : Nat} {text : List Char} {token mark : Token} {tokens : List Token} {c d : Char}

/-- What begins with a mark of two characters is no condition. -/
theorem Lexer.LexesTo.begins_pairMark (h : LexesTo count (c :: d :: text) (token :: tokens))
    (found : Shape.pairMark? c d = some mark) (solid : Text.isBlank c = false)
    (plain : mark.positionalCount = 0) : begins token = false := by
  obtain ⟨rfl, -⟩ := h.pairMark found solid plain
  exact begins_of_pairMark found

/-- The mark that a condition begins with is not the first character of a longer one. -/
theorem Lexer.LexesTo.singleMark_of_begins (h : LexesTo count (c :: text) (token :: tokens))
    (starts : begins token = true) (found : Shape.singleMark? c = some mark)
    (solid : Text.isBlank c = false) (plain : mark.positionalCount = 0) :
    token = mark ∧ LexesTo count text tokens := by
  rcases h.singleMark found solid plain with alone | ⟨d, -, paired⟩
  · exact alone
  · rw [begins_of_pairMark paired] at starts
    cases starts

/-- What begins with a mark that no condition begins with is none, whether the mark is the first
character of a longer one or not. -/
theorem Lexer.LexesTo.begins_singleMark (h : LexesTo count (c :: text) (token :: tokens))
    (found : Shape.singleMark? c = some mark) (solid : Text.isBlank c = false)
    (plain : mark.positionalCount = 0) (other : begins mark = false) : begins token = false := by
  rcases h.singleMark found solid plain with ⟨rfl, -⟩ | ⟨d, -, paired⟩
  · exact other
  · exact begins_of_pairMark paired

/-- A minus sign is read in front of a digit only. -/
theorem Lexer.LexesTo.digit_of_minus (h : LexesTo count ('-' :: text) (token :: tokens)) :
    text.head?.any Char.isDigit = true := by
  by_contra undigited
  apply h.start_ne_none (by decide)
  rw [Shape.start?, Shape.mark?_none (.inr (by decide)), if_neg (by decide), if_pos rfl,
    if_neg undigited]

/-- A percent sign is read where it begins a placeholder only. -/
theorem Lexer.LexesTo.placeholder_of_percent (h : LexesTo count ('%' :: text) (token :: tokens)) :
    (Shape.placeholderLength? text).isSome = true := by
  have starting : Shape.start? '%' text ≠ none := h.start_ne_none (by decide)
  rw [Option.isSome_iff_ne_none]
  intro none_found
  rw [start?_percent, none_found] at starting
  exact starting rfl

/-- Neither a plus sign nor a slash is read at all. -/
theorem Lexer.LexesTo.ne_plus_slash (h : LexesTo count (c :: text) (token :: tokens)) :
    c ≠ '+' ∧ c ≠ '/' := by
  constructor
  · rintro rfl
    refine absurd ?_ (h.start_ne_none (by decide))
    cases text <;> rfl
  · rintro rfl
    refine absurd ?_ (h.start_ne_none (by decide))
    cases text <;> rfl

/-- Where a condition begins with an operator, that is a negation, a minus sign in front of a digit,
or a percent sign that is taken for a placeholder. -/
theorem Lexer.LexesTo.leading {op : Operator}
    (h : LexesTo count (op.symbol.toList ++ text) (token :: tokens))
    (starts : begins token = true) :
    (op = .not ∧ token = .bang ∧ LexesTo count text tokens) ∨
      ((op = .negative ∨ op = .subtract) ∧ text.head?.any Char.isDigit = true) ∨
      (op = .modulo ∧ (Shape.placeholderLength? text).isSome = true) := by
  rw [Operator.toList_symbol] at h
  cases op with
  | not =>
      obtain ⟨rfl, more⟩ := h.singleMark_of_begins starts rfl (by decide) rfl
      exact .inl ⟨rfl, rfl, more⟩
  | negative => exact .inr (.inl ⟨.inl rfl, h.digit_of_minus⟩)
  | subtract => exact .inr (.inl ⟨.inr rfl, h.digit_of_minus⟩)
  | modulo => exact .inr (.inr ⟨rfl, h.placeholder_of_percent⟩)
  | divide => exact absurd rfl h.ne_plus_slash.2
  | add | positive => exact absurd rfl h.ne_plus_slash.1
  | multiply | lessThan | greaterThan | leftShift | rightShift =>
      have other := h.begins_singleMark rfl (by decide) rfl rfl
      rw [other] at starts
      cases starts
  | equal | notEqual | lessThanEqual | greaterThanEqual | and | or =>
      have other := h.begins_pairMark rfl (by decide) rfl
      rw [other] at starts
      cases starts
  | isNull | isNotNull =>
      obtain rfl := h.nullTest
      cases starts

end Beginnings

end DataFilter
