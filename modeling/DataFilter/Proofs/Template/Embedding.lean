import DataFilter.Proofs.Template.Grounded
import DataFilter.Proofs.Template.Inversion

/-!
# Texts in their place

A text that is lexed by itself is lexed to the same tokens in a longer one, if a blank or a closing
parenthesis stands behind it: neither prolongs any lexeme. So texts can be put together of which
nothing is known but their tokens.
-/

namespace DataFilter

open Grammar

/-! ## Lexemes in front of a border -/

namespace Shape

section Border

variable {c d quote : Char} {text rest : List Char} {test : Char → Bool}

theorem run_le (test : Char → Bool) (text : List Char) : run test text ≤ text.length :=
  (List.takeWhile_prefix test).length_le

/-- A run does not go on behind its text if the test fails there. -/
theorem run_append_cons (stop : test c = false) :
    run test (text ++ c :: rest) = run test text := by
  induction text with
  | nil => rw [List.nil_append, run, List.takeWhile_cons_of_neg (by simp [stop])]; rfl
  | cons d text ih =>
      by_cases pass : test d = true
      · rw [List.cons_append, run, run, List.takeWhile_cons_of_pos pass,
          List.takeWhile_cons_of_pos pass, List.length_cons, List.length_cons]
        exact congrArg (· + 1) ih
      · rw [List.cons_append, run, run, List.takeWhile_cons_of_neg pass,
          List.takeWhile_cons_of_neg pass]

/-- A number does not go on behind its text if neither a digit nor a point stands there. -/
theorem numberLength_append_cons (digit : c.isDigit = false) (point : c ≠ '.') :
    numberLength (text ++ c :: rest) = numberLength text := by
  unfold numberLength
  dsimp only
  rw [run_append_cons digit, List.drop_append_of_le_length (run_le _ _)]
  cases text.drop (run Char.isDigit text) with
  | nil =>
      dsimp only [List.nil_append]
      split
      · rename_i same
        exact absurd (List.cons.inj same).1 point
      · rfl
  | cons d behind =>
      by_cases pointed : d = '.'
      · subst pointed
        simp only [List.cons_append, run_append_cons digit]
      · dsimp only [List.cons_append]
        split
        · rename_i same
          exact absurd (List.cons.inj same).1 pointed
        · split
          · rename_i same
            exact absurd (List.cons.inj same).1 pointed
          · rfl

theorem numberLength_le (text : List Char) : numberLength text ≤ text.length := by
  have whole := run_le Char.isDigit text
  unfold numberLength
  dsimp only
  split
  · rename_i behind same
    have fraction := run_le Char.isDigit behind
    have length := congrArg List.length same
    rw [List.length_drop, List.length_cons] at length
    split <;> omega
  · exact whole

theorem quotedLength?_cons (plain : c ≠ '\\') :
    quotedLength? quote (c :: text) =
      if c = quote then some 1 else (quotedLength? quote text).map (· + 1) := by
  rw [quotedLength?]
  · rintro rfl
    exact absurd rfl plain
  · rintro _ _ rfl
    exact absurd rfl plain

/-- A string that is closed ends in its text. -/
theorem quotedLength?_append {n : Nat} (h : quotedLength? quote text = some n)
    (rest : List Char) :
    n ≤ text.length ∧ quotedLength? quote (text ++ rest) = some n := by
  fun_induction quotedLength? quote text generalizing n with
  | case1 => cases h
  | case2 => cases h
  | case3 => cases h
  | case4 d text plain ih =>
      obtain ⟨m, found, rfl⟩ := Option.map_eq_some_iff.mp h
      obtain ⟨inside, closed⟩ := ih found
      refine ⟨by simpa using inside, ?_⟩
      simp only [List.cons_append, quotedLength?, if_neg plain, closed, Option.map_some]
  | case5 text alone escape =>
      cases h
      refine ⟨by simp, ?_⟩
      have plain : quote ≠ '\\' := by
        rintro rfl
        cases text with
        | nil => exact alone rfl rfl
        | cons d text => exact escape d text rfl rfl
      rw [List.cons_append, quotedLength?_cons plain, if_pos rfl]
  | case6 c text alone escape other ih =>
      obtain ⟨m, found, rfl⟩ := Option.map_eq_some_iff.mp h
      obtain ⟨inside, closed⟩ := ih found
      refine ⟨by simpa using inside, ?_⟩
      have plain : c ≠ '\\' := by
        rintro rfl
        cases text with
        | nil => exact alone rfl rfl
        | cons d text => exact escape d text rfl rfl
      rw [List.cons_append, quotedLength?_cons plain, if_neg other, closed, Option.map_some]

/-- A placeholder ends in its text. -/
theorem placeholderLength?_append {n : Nat} (h : placeholderLength? text = some n)
    (stop : isNameChar c = false) (rest : List Char) :
    n ≤ text.length ∧ placeholderLength? (text ++ c :: rest) = some n := by
  unfold placeholderLength? at h
  split at h
  · rename_i body
    dsimp only at h
    split at h
    · rename_i letter more named closed
      split at h
      · rename_i kind
        cases h
        have length := congrArg List.length closed
        rw [List.length_drop, List.length_cons, List.length_cons] at length
        refine ⟨by rw [List.length_cons]; omega, ?_⟩
        simp only [List.cons_append, placeholderLength?, run_append_cons stop,
          List.take_append_of_le_length (run_le isNameChar body),
          List.drop_append_of_le_length (run_le isNameChar body), named, closed, if_pos kind]
      · cases h
    · cases h
  · rename_i letter more _
    split at h
    · rename_i kind
      cases h
      refine ⟨by simp, ?_⟩
      simp only [isKindLetter, Bool.or_eq_true, decide_eq_true_eq] at kind
      obtain (rfl | rfl) | rfl := kind <;> rfl
    · cases h
  · cases h

/-- A mark ends in its text, if none goes on with what stands behind it. -/
theorem mark?_append_cons (apart : pairMark? d c = none) :
    mark? d (text ++ c :: rest) = mark? d text := by
  cases text with
  | nil => rw [List.nil_append, mark?, mark?, List.head?_cons, Option.bind_some, apart]; rfl
  | cons first text => rfl

theorem pairMark?_of_border (border : c = ' ' ∨ c = ')') : pairMark? d c = none := by
  unfold pairMark?
  split <;> first | rfl | simp at border

/-- A mark of two characters is not longer than its text. -/
theorem le_of_mark? {shape : Shape} {n : Nat} (h : mark? d text = some (shape, n)) :
    n ≤ text.length := by
  cases text with
  | nil =>
      obtain ⟨token, -, ⟨⟩⟩ := Option.map_eq_some_iff.mp h
      exact Nat.le_refl 0
  | cons first text =>
      unfold mark? at h
      split at h
      · cases h
        simp
      · obtain ⟨token, -, ⟨⟩⟩ := Option.map_eq_some_iff.mp h
        simp

/-- The ways in which lexemes begin exclude each other. -/
theorem Starts.start?_eq {shape : Shape} {n : Nat} (h : Starts c rest shape n) :
    start? c rest = some (shape, n) := by
  cases h with
  | mark found => rw [start?, found]
  | number digit => exact start?_digit digit rest
  | negative minus digit =>
      subst minus
      rw [start?, mark?_none (.inr (by decide)), if_neg (by decide), if_pos rfl, if_pos digit]
  | quoted quote closed =>
      rcases quote with rfl | rfl
      · rw [start?, mark?_none (.inr (by decide)), if_neg (by decide), if_neg (by decide),
          if_pos (by decide), closed, Option.map_some]
      · have unmarked : mark? '\'' rest = none := by cases rest <;> rfl
        rw [start?, unmarked, if_neg (by decide), if_neg (by decide),
          if_pos (by decide), closed, Option.map_some]
  | placeholder percent found =>
      subst percent
      rw [start?_percent, found, Option.map_some]
  | word start => exact start?_word start rest

/-- A lexeme that is found in a text is found there as well if a border stands behind the text. -/
theorem start?_append {shape : Shape} {n : Nat} (h : start? d text = some (shape, n))
    (border : c = ' ' ∨ c = ')') (rest : List Char) :
    n ≤ text.length ∧ start? d (text ++ c :: rest) = some (shape, n) := by
  have digit : c.isDigit = false := by rcases border with rfl | rfl <;> decide
  have point : c ≠ '.' := by rcases border with rfl | rfl <;> decide
  have name : isNameChar c = false := by rcases border with rfl | rfl <;> decide
  have number : numberLength (text ++ c :: rest) = numberLength text :=
    numberLength_append_cons digit point
  cases starts_of_start? h with
  | mark found =>
      refine ⟨le_of_mark? found, Starts.start?_eq (.mark ?_)⟩
      rw [mark?_append_cons (pairMark?_of_border border), found]
  | number first =>
      refine ⟨numberLength_le text, ?_⟩
      rw [← number]
      exact (Starts.number first).start?_eq
  | negative minus first =>
      refine ⟨numberLength_le text, ?_⟩
      rw [← number]
      refine (Starts.negative minus ?_).start?_eq
      cases text with
      | nil => cases first
      | cons next text => exact first
  | quoted quote closed =>
      obtain ⟨inside, same⟩ := quotedLength?_append closed (c :: rest)
      exact ⟨inside, (Starts.quoted quote same).start?_eq⟩
  | placeholder percent found =>
      obtain ⟨inside, same⟩ := placeholderLength?_append found name rest
      exact ⟨inside, (Starts.placeholder percent same).start?_eq⟩
  | word start =>
      refine ⟨run_le _ _, ?_⟩
      rw [← run_append_cons name]
      exact (Starts.word start).start?_eq

end Border

/-- No lexeme is read as the end. -/
theorem read_ne_eof {c : Char} {rest text : List Char} {shape : Shape} {more index : Nat}
    {token : Token} (found : start? c rest = some (shape, more))
    (read : shape.read text index = .ok token) : token ≠ .eof := by
  rintro rfl
  cases gives_of_read read with
  | mark => exact absurd ((start?_spelling found).1 _ rfl) Bool.false_ne_true

end Shape

/-! ## Texts in front of a border -/

namespace Lexer.LexesTo

variable {count : Nat} {c : Char} {text back rest : List Char} {next : Token}
  {tokens more : List Token}

/-- Nothing is lexed to nothing. -/
theorem tokens_eq_nil (h : LexesTo count [] tokens) : tokens = [] := by
  obtain ⟨l, after, position, hrest, -, scans, -⟩ := h
  cases scans with
  | stay => rfl
  | step read inside _ =>
      obtain ⟨position, empty⟩ := next_nil hrest
      rw [read] at empty
      cases empty
      exact absurd rfl inside

/-- Where a lexeme begins, there is a token. -/
theorem tokens_ne_nil (h : LexesTo count (c :: text) tokens) (solid : Text.isBlank c = false) :
    tokens ≠ [] := by
  rintro rfl
  obtain ⟨l, after, position, hrest, -, scans, ends⟩ := h
  cases scans
  rw [next, skipBlanks_eq_self hrest solid, take, hrest] at ends
  dsimp only at ends
  cases start : Shape.start? c text with
  | none =>
      rw [start] at ends
      cases ends
  | some found =>
      obtain ⟨shape, length⟩ := found
      simp only [start] at ends
      cases read : shape.read (c :: text.take length) l.placeholders with
      | error fault =>
          rw [read] at ends
          cases ends
      | ok token =>
          rw [read] at ends
          cases ends
          exact Shape.read_ne_eof start read rfl

/-- A text that is lexed by itself is lexed to the same tokens in front of a border. -/
theorem append (h : LexesTo count text tokens) (border : c = ' ' ∨ c = ')')
    (behind : Reads (count + positionals tokens) (c :: back) (next :: more) rest) :
    Reads count (text ++ c :: back) (tokens ++ next :: more) rest := by
  obtain ⟨n, bound⟩ : ∃ n, text.length ≤ n := ⟨_, Nat.le_refl _⟩
  -- along the text, a blank or a lexeme at a time
  induction n generalizing count text tokens with
  | zero =>
      obtain rfl := List.length_eq_zero_iff.mp (Nat.le_zero.mp bound)
      obtain rfl := h.tokens_eq_nil
      exact behind
  | succ n ih =>
      cases text with
      | nil =>
          obtain rfl := h.tokens_eq_nil
          exact behind
      | cons d text =>
          rw [List.length_cons] at bound
          by_cases blank : Text.isBlank d = true
          · have inner := ih (h.blank blank) behind (by omega)
            obtain ⟨first, others, split⟩ :=
              List.exists_cons_of_ne_nil (l := tokens ++ next :: more) (by simp)
            rw [split] at inner ⊢
            exact inner.blank blank
          · rw [Bool.not_eq_true] at blank
            obtain ⟨token, tokens, rfl⟩ := List.exists_cons_of_ne_nil (h.tokens_ne_nil blank)
            obtain ⟨shape, length, start, read, others⟩ := h.first blank
            obtain ⟨inside, again⟩ := Shape.start?_append start border (back ++ rest)
            have used : (text.take length).length = length := List.length_take_of_le inside
            have first : Reads count (d :: text.take length) [token]
                (text.drop length ++ c :: back ++ rest) := by
              refine reads_lexeme shape blank ?_ read (Shape.read_ne_eof start read)
              rw [used, ← again, List.append_assoc, ← List.append_assoc, List.take_append_drop]
              rfl
            have both : Reads count (d :: text.take length ++ (text.drop length ++ c :: back))
                ([token] ++ (tokens ++ next :: more)) rest := by
              refine first.append (ih others ?_ (by rw [List.length_drop]; omega))
              rw [Nat.add_assoc]
              exact behind
            rw [List.cons_append, ← List.append_assoc, List.take_append_drop] at both
            exact both

end Lexer.LexesTo

end DataFilter
