import DataFilter.Template.Lexer
import Mathlib.Algebra.GroupWithZero.Nat

/-!
# Runs of the lexer

A run of the lexer takes lexemes off the text until the end of it. `Lexer.Scans` is a run that has
not come to the end yet: it goes from one state to another and reads some tokens on the way. Runs
can be put together, so a text is lexed by lexing its parts.
-/

namespace DataFilter

namespace Lexer

/-! ## The end of a run -/

theorem next_nil {l : Lexer} (h : l.rest = []) : ∃ position, l.next.1 = .ok ⟨.eof, position⟩ := by
  refine ⟨l.skipBlanks.position, ?_⟩
  have empty : l.skipBlanks.rest = [] := by simp [skipBlanks, h]
  simp [next, take, empty]

/-- A lexeme other than the end takes something off the unread part. -/
theorem length_next_lt {l after : Lexer} {lexeme : Lexeme} (h : l.next = (.ok lexeme, after))
    (hne : lexeme.token ≠ .eof) : after.rest.length < l.rest.length :=
  Nat.lt_of_lt_of_le (length_take_lt h hne) l.length_skipBlanks_le

/-- A run reads a first lexeme, and either stops there or goes on behind it. -/
theorem upToEnd_eq_ok {count : Nat} {l : Lexer} {lexemes : List Lexeme}
    (h : l.upToEnd count = .ok lexemes) :
    ∃ lexeme after more, l.next = (.ok lexeme, after) ∧ lexemes = lexeme :: more ∧
      (more = [] ∨ ∃ bound, after.upToEnd bound = .ok more) := by
  cases count with
  | zero =>
      rw [upToEnd] at h
      cases hnext : l.next.1 with
      | error e =>
          rw [hnext] at h
          cases h
      | ok lexeme =>
          rw [hnext] at h
          cases h
          exact ⟨lexeme, l.next.2, [], Prod.ext hnext rfl, rfl, .inl rfl⟩
  | succ count =>
      rw [upToEnd] at h
      split at h
      · cases h
      · rename_i lexeme after hnext
        split at h
        · cases h
          exact ⟨lexeme, after, [], hnext, rfl, .inl rfl⟩
        · cases hrun : upToEnd count after with
          | error e =>
              rw [hrun] at h
              cases h
          | ok more =>
              rw [hrun] at h
              cases h
              exact ⟨lexeme, after, more, hnext, rfl, .inr ⟨count, hrun⟩⟩

/-- The end is the last token that is read, and none of those before it. -/
theorem tokens_of_upToEnd {count : Nat} {l : Lexer} {lexemes : List Lexeme}
    (h : l.upToEnd count = .ok lexemes) (hcount : l.rest.length ≤ count) :
    ∃ front, lexemes.map Lexeme.token = front ++ [.eof] ∧ Token.eof ∉ front := by
  induction count generalizing l lexemes with
  | zero =>
      obtain ⟨position, hnext⟩ := next_nil (List.length_eq_zero_iff.mp (Nat.le_zero.mp hcount))
      rw [upToEnd, hnext] at h
      cases h
      exact ⟨[], rfl, List.not_mem_nil⟩
  | succ count ih =>
      rw [upToEnd] at h
      split at h
      · cases h
      · rename_i lexeme after hnext
        split at h
        · rename_i heof
          cases h
          exact ⟨[], by simp [heof], List.not_mem_nil⟩
        · rename_i hne
          have shorter := length_next_lt hnext hne
          cases hrun : upToEnd count after with
          | error e => rw [hrun] at h; cases h
          | ok more =>
              rw [hrun] at h
              cases h
              obtain ⟨front, htokens, hfront⟩ := ih hrun (by omega)
              refine ⟨lexeme.token :: front, by simp [htokens], ?_⟩
              rw [List.mem_cons, not_or]
              exact ⟨fun heq => hne heq.symm, hfront⟩

/-! ## Runs before the end -/

/-- Reading goes from one state to another over these tokens, none of which is the end. -/
inductive Scans : Lexer → List Token → Lexer → Prop where
  | stay (l : Lexer) : Scans l [] l
  | step {l middle after : Lexer} {lexeme : Lexeme} {tokens : List Token}
      (read : l.next = (.ok lexeme, middle)) (inside : lexeme.token ≠ .eof)
      (more : Scans middle tokens after) : Scans l (lexeme.token :: tokens) after

theorem Scans.append {a b c : Lexer} {front back : List Token} (h : Scans a front b)
    (h' : Scans b back c) : Scans a (front ++ back) c := by
  induction h with
  | stay => exact h'
  | step read inside _ ih => exact .step read inside (ih h')

/-- A run to the end of the text is the whole run. -/
theorem Scans.upToEnd {l after : Lexer} {tokens : List Token} (h : Scans l tokens after)
    (hend : after.rest = []) {count : Nat} (hcount : l.rest.length ≤ count) :
    ∃ lexemes, l.upToEnd count = .ok lexemes ∧ lexemes.map Lexeme.token = tokens ++ [.eof] := by
  induction h generalizing count with
  | stay l =>
      obtain ⟨position, hnext⟩ := next_nil hend
      refine ⟨[⟨.eof, position⟩], ?_, rfl⟩
      cases count with
      | zero => rw [Lexer.upToEnd, hnext]; rfl
      | succ count =>
          rw [Lexer.upToEnd]
          split
          · rename_i e _ hread
            rw [hread] at hnext
            cases hnext
          · rename_i lexeme _ hread
            rw [hread] at hnext
            cases hnext
            rfl
  | @step _ _ _ lexeme _ read inside _ ih =>
      have shorter := length_next_lt read inside
      obtain ⟨n, rfl⟩ : ∃ n, count = n + 1 := ⟨count - 1, by omega⟩
      obtain ⟨lexemes, hrun, htokens⟩ := ih hend (by omega : _ ≤ n)
      refine ⟨lexeme :: lexemes, ?_, by rw [List.map_cons, htokens, List.cons_append]⟩
      rw [Lexer.upToEnd, read]
      simp only [if_neg inside, hrun]
      rfl

/-! ## Reading a part of the text -/

/-- With `count` placeholders read before it, the text `front` is read as these tokens if `rest`
follows. -/
def Reads (count : Nat) (front : List Char) (tokens : List Token) (rest : List Char) : Prop :=
  ∀ l : Lexer, l.rest = front ++ rest → l.placeholders = count →
    ∃ after, Scans l tokens after ∧ after.rest = rest ∧
      after.placeholders = count + (tokens.map Token.positionalCount).sum

theorem reads_nil (count : Nat) (rest : List Char) : Reads count [] [] rest :=
  fun l hrest hcount => ⟨l, .stay l, hrest, by simp [hcount]⟩

theorem Reads.append {count : Nat} {front back rest : List Char} {tokens more : List Token}
    (h : Reads count front tokens (back ++ rest))
    (h' : Reads (count + (tokens.map Token.positionalCount).sum) back more rest) :
    Reads count (front ++ back) (tokens ++ more) rest := by
  intro l hrest hcount
  obtain ⟨middle, hfront, hmiddle, hplaceholders⟩ := h l (by rw [hrest, List.append_assoc]) hcount
  obtain ⟨after, hback, hafter, hcount'⟩ := h' middle hmiddle hplaceholders
  refine ⟨after, hfront.append hback, hafter, ?_⟩
  rw [hcount', List.map_append, List.sum_append, Nat.add_assoc]

/-- A blank in front of a lexeme is skipped. -/
theorem Reads.blank {count : Nat} {c : Char} {front rest : List Char} {token : Token}
    {tokens : List Token} (blank : Text.isBlank c = true)
    (h : Reads count front (token :: tokens) rest) :
    Reads count (c :: front) (token :: tokens) rest := by
  intro l hrest hcount
  let behind : Lexer := { l with rest := front ++ rest, position := l.position + c.utf8Size }
  obtain ⟨after, hscans, hafter⟩ := h behind rfl hcount
  refine ⟨after, ?_, hafter⟩
  have same : l.next = behind.next := by
    have hskip : l.skipBlanks = behind.skipBlanks := by
      simp only [skipBlanks, hrest, behind, List.cons_append, List.dropWhile_cons, blank, if_true,
        List.takeWhile_cons, Text.byteLength, Nat.add_assoc]
    rw [next, hskip, next]
  cases hscans with
  | step read inside more => exact .step (same.trans read) inside more

/-- In front of a lexeme there is nothing to skip. -/
theorem skipBlanks_eq_self {l : Lexer} {c : Char} {text : List Char} (hrest : l.rest = c :: text)
    (solid : Text.isBlank c = false) : l.skipBlanks = l := by
  have hdrop : l.rest.dropWhile Text.isBlank = l.rest := by
    rw [hrest, List.dropWhile_cons_of_neg (by simp [solid])]
  have htake : l.rest.takeWhile Text.isBlank = [] := by
    rw [hrest, List.takeWhile_cons_of_neg (by simp [solid])]
  rw [skipBlanks, hdrop, htake]
  rfl

/-- A text of the right shape is read as one token. -/
theorem reads_lexeme {count : Nat} {c : Char} {body rest : List Char} (shape : Shape)
    {token : Token} (solid : Text.isBlank c = false)
    (found : Shape.start? c (body ++ rest) = some (shape, body.length))
    (read : shape.read (c :: body) count = .ok token) (inside : token ≠ .eof) :
    Reads count (c :: body) [token] rest := by
  rintro l hrest rfl
  have hskip : l.skipBlanks = l := skipBlanks_eq_self hrest solid
  let after : Lexer := { l.skip (body.length + 1) with
    placeholders := l.placeholders + token.positionalCount }
  have hnext : l.next = (.ok ⟨token, l.position⟩, after) := by
    rw [next, hskip, take, hrest, List.cons_append]
    simp only [found, List.take_left, read]
    rfl
  refine ⟨after, .step hnext inside (.stay after), ?_, ?_⟩
  · simp [after, skip, hrest]
  · simp [after]

end Lexer

/-- A template that is tokenized ends with the token `eof`, which stands nowhere else. -/
theorem tokens_of_tokenize {input : String} {lexemes : List Lexeme}
    (h : tokenize input = .ok lexemes) :
    ∃ front, lexemes.map Lexeme.token = front ++ [.eof] ∧ Token.eof ∉ front :=
  Lexer.tokens_of_upToEnd h (Nat.le_refl _)

end DataFilter
