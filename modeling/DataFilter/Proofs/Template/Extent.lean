import DataFilter.Proofs.Template.Embedding

/-!
# Where a lexeme ends

What belongs to a lexeme is decided by its own characters and by at most two that stand behind it:
a name goes on with characters of names, a number with digits or with a point and a digit, and a
mark may go on with a second character. Strings and placeholders end in themselves. So a lexeme
stays what it is if the text behind it is replaced by one that begins with a blank, or with the same
character and then a blank (`Shape.start?_replace`). No lexeme begins or ends with a blank.
-/

namespace DataFilter

/-- All characters are blanks. -/
def IsGap (text : List Char) : Prop := ∀ c ∈ text, Text.isBlank c = true

/-- There are characters, and neither the first one nor the last one is a blank. -/
structure IsSolid (text : List Char) : Prop where
  nonempty : text ≠ []
  first : ∀ c ∈ text.head?, Text.isBlank c = false
  last : ∀ c ∈ text.getLast?, Text.isBlank c = false

instance (text : List Char) : Decidable (IsGap text) :=
  decidable_of_iff (text.all Text.isBlank = true) List.all_eq_true

instance (text : List Char) : Decidable (IsSolid text) :=
  decidable_of_iff (text ≠ [] ∧ text.head?.any Text.isBlank = false ∧
      text.getLast?.any Text.isBlank = false)
    ⟨fun h => ⟨h.1, (Option.any_eq_false _ _).mp h.2.1, (Option.any_eq_false _ _).mp h.2.2⟩,
      fun h => ⟨h.nonempty, (Option.any_eq_false _ _).mpr h.first,
        (Option.any_eq_false _ _).mpr h.last⟩⟩

/-- The text begins with a blank, or it is empty. -/
def Apart (text : List Char) : Prop := ∀ c ∈ text.head?, Text.isBlank c = true

/-- Behind a lexeme, `new` may stand in the place of `old`: it begins with a blank, if with anything,
or with the same character, and then with a blank, with nothing, or with the same one again. -/
def Replaces (new old : List Char) : Prop :=
  Apart new ∨ ∃ c more more', new = c :: more ∧ old = c :: more' ∧
    (Apart more ∨ more.head? = more'.head?)

/-! ## Blanks prolong nothing -/

section Blank

variable {c d : Char}

theorem isNameChar_of_isBlank (blank : Text.isBlank c = true) : isNameChar c = false := by
  rw [← Bool.not_eq_true]
  intro name
  rw [isNameChar, Bool.or_eq_true, decide_eq_true_eq] at name
  rcases name with alphanum | rfl
  · rw [isBlank_of_isAlphanum alphanum] at blank
    cases blank
  · exact absurd blank (by decide)

theorem isDigit_of_isBlank (blank : Text.isBlank c = true) : c.isDigit = false :=
  isDigit_of_isNameChar (isNameChar_of_isBlank blank)

theorem isBlank_of_isNameChar (name : isNameChar c = true) : Text.isBlank c = false := by
  rw [← Bool.not_eq_true]
  intro blank
  rw [isNameChar_of_isBlank blank] at name
  cases name

theorem isBlank_of_isDigit (digit : c.isDigit = true) : Text.isBlank c = false :=
  isBlank_of_isAlphanum (by simp [Char.isAlphanum, digit])

/-- The second character of a mark is no blank. -/
theorem isBlank_of_pairMark? {token : Token} (pair : Shape.pairMark? d c = some token) :
    Text.isBlank c = false := by
  unfold Shape.pairMark? at pair
  split at pair <;> first | decide | cases pair

end Blank

namespace Replaces

variable {new old : List Char}

/-- No character comes first that did not, but for blanks. -/
theorem head (h : Replaces new old) {p : Char → Prop} (blanks : ∀ c, Text.isBlank c = true → p c)
    (each : ∀ c ∈ old.head?, p c) : ∀ c ∈ new.head?, p c := by
  rcases h with apart | ⟨c, more, more', rfl, rfl, -⟩
  · exact fun c hc => blanks c (apart c hc)
  · exact each

/-- Behind a character that is no blank, nothing comes that did not, but for blanks. -/
theorem second (h : Replaces new old) {c : Char} {more : List Char} (split : new = c :: more)
    (solid : Text.isBlank c = false) {p : Char → Prop} (blanks : ∀ c, Text.isBlank c = true → p c)
    (each : ∀ others, old = c :: others → ∀ d ∈ others.head?, p d) : ∀ d ∈ more.head?, p d := by
  rcases h with apart | ⟨c', more', others, rfl, rfl, behind⟩
  · rw [split] at apart
    rw [apart c rfl] at solid
    cases solid
  · cases split
    rcases behind with apart | same
    · exact fun d hd => blanks d (apart d hd)
    · rw [same]
      exact each others rfl

end Replaces

/-! ## The extent of each shape -/

namespace Shape

variable {c quote : Char} {body rest new : List Char} {test : Char → Bool}

/-- A run ends with its text just if the test holds throughout it and fails behind it. -/
theorem run_eq_length_iff : run test (body ++ rest) = body.length ↔
    (∀ c ∈ body, test c = true) ∧ ∀ c ∈ rest.head?, test c = false := by
  constructor
  · intro h
    have taken : (body ++ rest).takeWhile test = body := by
      have front := List.takeWhile_prefix (l := body ++ rest) test
      rw [List.prefix_iff_eq_take] at front
      rw [front]
      show (body ++ rest).take (run test (body ++ rest)) = body
      rw [h, List.take_left]
    have pass : ∀ c ∈ body, test c = true := by
      rw [← taken]
      exact fun c hc => List.mem_takeWhile_imp hc
    refine ⟨pass, ?_⟩
    intro c hc
    obtain ⟨more, rfl⟩ := List.head?_eq_some_iff.mp hc
    rw [← Bool.not_eq_true]
    intro goes_on
    rw [List.takeWhile_append_of_pos pass, List.takeWhile_cons_of_pos goes_on] at taken
    simp at taken
  · rintro ⟨pass, stop⟩
    exact run_append pass stop

/-- Digits without a point and a digit behind them are a whole number. -/
theorem numberLength_whole (pass : ∀ c ∈ body, c.isDigit = true)
    (stop : ∀ c ∈ rest.head?, c.isDigit = false)
    (pointed : ∀ more, rest = '.' :: more → ∀ d ∈ more.head?, d.isDigit = false) :
    numberLength (body ++ rest) = body.length := by
  have whole : run Char.isDigit (body ++ rest) = body.length := run_append pass stop
  unfold numberLength
  simp only [whole, List.drop_left]
  split
  · rename_i more
    have none_behind : run Char.isDigit ([] ++ more) = 0 := run_append (by simp) (pointed more rfl)
    rw [List.nil_append] at none_behind
    rw [if_pos none_behind]
  · rfl

theorem run_le_numberLength (text : List Char) : run Char.isDigit text ≤ numberLength text := by
  unfold numberLength
  dsimp only
  split
  · split <;> omega
  · exact Nat.le_refl _

/-- A number is whole, or it has a point with digits behind it. -/
theorem numberLength_eq_length (h : numberLength (body ++ rest) = body.length) :
    (∀ c ∈ rest.head?, c.isDigit = false) ∧
      (((∀ c ∈ body, c.isDigit = true) ∧
          ∀ more, rest = '.' :: more → ∀ d ∈ more.head?, d.isDigit = false) ∨
        ∃ whole fraction, body = whole ++ '.' :: fraction ∧ (∀ c ∈ whole, c.isDigit = true) ∧
          IsDigits fraction) := by
  -- the digits in front, and what stands behind them in the number
  obtain ⟨whole, behind, rfl, pass, stop⟩ : ∃ whole behind, body = whole ++ behind ∧
      (∀ c ∈ whole, c.isDigit = true) ∧ ∀ c ∈ behind.head?, c.isDigit = false := by
    refine ⟨_, _, List.takeWhile_append_dropWhile.symm, fun c hc => List.mem_takeWhile_imp hc, ?_⟩
    intro c hc
    have failed := List.head?_dropWhile_not Char.isDigit body
    rw [Option.mem_def.mp hc] at failed
    simpa using failed
  cases behind with
  | nil =>
      rw [List.append_nil] at h ⊢
      have longer : run Char.isDigit (whole ++ rest) = whole.length + run Char.isDigit rest := by
        rw [run, List.takeWhile_append_of_pos pass, List.length_append]
        rfl
      have ends : ∀ c ∈ rest.head?, c.isDigit = false := by
        have bound := run_le_numberLength (whole ++ rest)
        have empty : run Char.isDigit ([] ++ rest) = ([] : List Char).length := by
          show run Char.isDigit rest = 0
          omega
        exact (run_eq_length_iff.mp empty).2
      have digits : run Char.isDigit (whole ++ rest) = whole.length := run_append pass ends
      refine ⟨ends, .inl ⟨pass, ?_⟩⟩
      rintro more rfl d hd
      unfold numberLength at h
      simp only [digits, List.drop_left] at h
      split at h
      · rename_i none_behind
        have empty : run Char.isDigit ([] ++ more) = ([] : List Char).length := none_behind
        exact (run_eq_length_iff.mp empty).2 d hd
      · omega
  | cons d more =>
      have digits : run Char.isDigit (whole ++ d :: (more ++ rest)) = whole.length :=
        run_append pass stop
      rw [List.append_assoc, List.cons_append] at h
      unfold numberLength at h
      simp only [digits, List.drop_left, List.length_append, List.length_cons] at h
      split at h
      · rename_i others same
        obtain ⟨rfl, rfl⟩ := List.cons.inj same
        split at h
        · omega
        · rename_i some_behind
          have count : run Char.isDigit (more ++ rest) = more.length := by omega
          obtain ⟨fraction, ends⟩ := run_eq_length_iff.mp count
          refine ⟨ends, .inr ⟨whole, more, rfl, pass, ?_, fraction⟩⟩
          rintro rfl
          exact some_behind count
      · omega

theorem pos_of_quotedLength? {n : Nat} {text : List Char} (h : quotedLength? quote text = some n) :
    0 < n := by
  unfold quotedLength? at h
  split at h
  · cases h
  · cases h
  · split at h
    · cases h
    · obtain ⟨m, -, rfl⟩ := Option.map_eq_some_iff.mp h
      omega
  · split at h
    · cases h
      omega
    · obtain ⟨m, -, rfl⟩ := Option.map_eq_some_iff.mp h
      omega

/-- A backslash is the last character or it takes the next one with it. -/
theorem plain_of_no_escape {more : List Char} (alone : c = '\\' → more = [] → False)
    (escape : ∀ d others, c = '\\' → more = d :: others → False) : c ≠ '\\' := by
  intro backslash
  cases more with
  | nil => exact alone backslash rfl
  | cons d others => exact escape d others backslash rfl

/-- A string is closed in its own text, by a quote. -/
theorem quotedLength?_eq_length (h : quotedLength? quote (body ++ rest) = some body.length) :
    quotedLength? quote body = some body.length ∧ body.getLast? = some quote := by
  fun_induction quotedLength? quote body with
  | case1 => exact absurd (pos_of_quotedLength? h) (Nat.lt_irrefl 0)
  | case2 =>
      -- a backslash takes a character with it
      cases rest with
      | nil => cases h
      | cons c rest =>
          rw [List.cons_append, List.nil_append, quotedLength?] at h
          split at h
          · cases h
          · obtain ⟨m, -, two⟩ := Option.map_eq_some_iff.mp h
            simp at two
  | case3 more => simp [quotedLength?] at h
  | case4 c more plain ih =>
      rw [List.cons_append, List.cons_append, quotedLength?, if_neg plain] at h
      obtain ⟨m, found, same⟩ := Option.map_eq_some_iff.mp h
      obtain rfl : m = more.length := by simpa using same
      obtain ⟨closed, last⟩ := ih found
      refine ⟨by rw [closed]; rfl, ?_⟩
      rw [List.getLast?_cons, List.getLast?_cons, last]
      rfl
  | case5 more alone escape =>
      rw [List.cons_append, quotedLength?_cons (plain_of_no_escape alone escape), if_pos rfl] at h
      obtain rfl : more = [] := by simpa using h
      exact ⟨rfl, rfl⟩
  | case6 c more alone escape other ih =>
      have plain := plain_of_no_escape alone escape
      rw [List.cons_append, quotedLength?_cons plain, if_neg other] at h
      obtain ⟨m, found, same⟩ := Option.map_eq_some_iff.mp h
      obtain rfl : m = more.length := by simpa using same
      obtain ⟨closed, last⟩ := ih found
      refine ⟨by rw [closed]; rfl, ?_⟩
      rw [List.getLast?_cons, last]
      rfl

theorem exists_kind {letter : Char} (h : isKindLetter letter = true) :
    ∃ kind : PlaceholderKind, letter = kind.letter := by
  simp only [isKindLetter, Bool.or_eq_true, decide_eq_true_eq] at h
  obtain (rfl | rfl) | rfl := h
  · exact ⟨.any, rfl⟩
  · exact ⟨.integer, rfl⟩
  · exact ⟨.float, rfl⟩

/-- The two forms of placeholders. -/
theorem placeholderLength?_eq_some {text : List Char} {n : Nat}
    (h : placeholderLength? text = some n) :
    ∃ (kind : PlaceholderKind) (others : List Char), text = kind.letter :: others ∧ n = 1 ∨
      ∃ name, isName name = true ∧ text = '(' :: (name ++ ')' :: kind.letter :: others) ∧
        n = name.length + 3 := by
  unfold placeholderLength? at h
  split at h
  · rename_i rest
    dsimp only at h
    split at h
    · rename_i letter others named closed
      split at h
      · rename_i asks
        cases h
        obtain ⟨kind, rfl⟩ := exists_kind asks
        refine ⟨kind, others, .inr ⟨_, named, ?_, ?_⟩⟩
        · rw [← closed, List.take_append_drop]
        · rw [List.length_take_of_le (run_le _ _)]
      · cases h
    · cases h
  · split at h
    · rename_i asks
      cases h
      obtain ⟨kind, rfl⟩ := exists_kind asks
      exact ⟨kind, _, .inl ⟨rfl, rfl⟩⟩
    · cases h
  · cases h

/-- A placeholder ends in its own text, with a letter. -/
theorem placeholderLength?_eq_length (h : placeholderLength? (body ++ rest) = some body.length) :
    (∀ new, placeholderLength? (body ++ new) = some body.length) ∧
      ∃ kind : PlaceholderKind, body.getLast? = some kind.letter := by
  obtain ⟨kind, others, ⟨text, length⟩ | ⟨name, named, text, length⟩⟩ := placeholderLength?_eq_some h
  · have split : body ++ rest = [kind.letter] ++ others := text
    obtain ⟨rfl, -⟩ := List.append_inj split length
    refine ⟨fun new => ?_, kind, rfl⟩
    cases kind <;> rfl
  · have split : body ++ rest = '(' :: (name ++ [')', kind.letter]) ++ others := by
      rw [text]
      simp
    obtain ⟨rfl, -⟩ := List.append_inj split (by rw [length]; simp)
    refine ⟨fun new => ?_, kind, ?_⟩
    · have found := placeholderLength?_name named kind new
      simpa using found
    · rw [List.getLast?_cons, List.getLast?_append]
      rfl

/-! ## Lexemes -/

/-- What is no mark of two characters is none behind which a blank stands. -/
theorem mark?_replace (swap : Replaces new rest)
    (inside : ∀ shape n, mark? c (body ++ rest) = some (shape, n) → n ≤ body.length) :
    mark? c (body ++ new) = mark? c (body ++ rest) := by
  cases body with
  | cons d body => rfl
  | nil =>
      have alone : ∀ d ∈ rest.head?, pairMark? c d = none := by
        intro d hd
        rw [Option.eq_none_iff_forall_ne_some]
        intro token pair
        have marked : mark? c rest = some (mark token, 1) := by
          rw [mark?, Option.mem_def.mp hd, Option.bind_some, pair]
        exact absurd (inside _ _ marked) (by simp)
      have alone' : ∀ d ∈ new.head?, pairMark? c d = none := by
        refine swap.head ?_ alone
        intro d blank
        rw [Option.eq_none_iff_forall_ne_some]
        intro token pair
        rw [isBlank_of_pairMark? pair] at blank
        cases blank
      have unpaired {text : List Char} (alone : ∀ d ∈ text.head?, pairMark? c d = none) :
          mark? c text = (singleMark? c).map fun token => (mark token, 0) := by
        have none_found : text.head?.bind (pairMark? c) = none := by
          cases text with
          | nil => rfl
          | cons d text => exact alone d rfl
        rw [mark?, none_found]
      rw [List.nil_append, List.nil_append, unpaired alone, unpaired alone']

/-- A number stays as it is. -/
theorem numberLength_replace (swap : Replaces new rest)
    (h : numberLength (body ++ rest) = body.length) : numberLength (body ++ new) = body.length := by
  obtain ⟨stop, ⟨pass, pointed⟩ | ⟨whole, fraction, rfl, pass, digits⟩⟩ :=
    numberLength_eq_length h
  · refine numberLength_whole pass (swap.head (fun d => isDigit_of_isBlank) stop) ?_
    intro more split
    exact swap.second split (by decide) (fun d => isDigit_of_isBlank) pointed
  · have stop' := swap.head (fun d => isDigit_of_isBlank) stop
    rw [List.append_assoc, List.cons_append]
    exact numberLength_point pass digits stop'

/-- A word stays as it is. -/
theorem run_replace (swap : Replaces new rest) (blanks : ∀ c, Text.isBlank c = true → test c = false)
    (h : run test (body ++ rest) = body.length) : run test (body ++ new) = body.length := by
  obtain ⟨pass, stop⟩ := run_eq_length_iff.mp h
  exact run_eq_length_iff.mpr ⟨pass, swap.head blanks stop⟩

/-- A lexeme stays as it is if the text behind it is replaced. -/
theorem start?_replace {shape : Shape} (h : start? c (body ++ rest) = some (shape, body.length))
    (swap : Replaces new rest) : start? c (body ++ new) = some (shape, body.length) := by
  apply Starts.start?_eq
  have inside : ∀ found n, mark? c (body ++ rest) = some (found, n) → n ≤ body.length := by
    intro found n marked
    rw [start?, marked] at h
    cases h
    exact Nat.le_refl _
  generalize length : body.length = n at h
  cases starts_of_start? h with
  | mark found =>
      rw [← mark?_replace swap inside] at found
      exact .mark found
  | number digit =>
      rw [← length, ← numberLength_replace swap length.symm]
      exact .number digit
  | negative minus digit =>
      rw [← length, ← numberLength_replace swap length.symm]
      refine .negative minus ?_
      cases body with
      | nil =>
          have stop := (numberLength_eq_length length.symm).1
          cases rest with
          | nil => cases digit
          | cons d rest =>
              have follows : d.isDigit = true := digit
              rw [stop d rfl] at follows
              cases follows
      | cons d body => exact digit
  | quoted quote closed =>
      rw [← length] at closed
      rw [← length]
      exact .quoted quote (quotedLength?_append (quotedLength?_eq_length closed).1 new).2
  | placeholder percent found =>
      rw [← length] at found
      rw [← length]
      exact .placeholder percent ((placeholderLength?_eq_length found).1 new)
  | word start =>
      rw [← length, ← run_replace swap (fun d => isNameChar_of_isBlank) length.symm]
      exact .word start

/-- The last character of a number is a digit. -/
theorem isDigit_getLast_of_numberLength (h : numberLength (body ++ rest) = body.length) :
    ∀ d ∈ body.getLast?, d.isDigit = true := by
  intro d hd
  obtain ⟨-, ⟨pass, -⟩ | ⟨whole, fraction, rfl, -, digits⟩⟩ := numberLength_eq_length h
  · exact pass d (List.mem_of_getLast? hd)
  · obtain ⟨front, last, rfl⟩ := (List.eq_nil_or_concat fraction).resolve_left digits.1
    have final : (whole ++ '.' :: front.concat last).getLast? = some last := by
      rw [List.concat_eq_append, ← List.cons_append, ← List.append_assoc, List.getLast?_concat]
    obtain rfl : last = d := Option.some.inj (final.symm.trans hd)
    exact digits.2 last (by simp)

/-- No lexeme ends with a blank. -/
theorem isSolid_of_start? {shape : Shape}
    (h : start? c (body ++ rest) = some (shape, body.length)) (solid : Text.isBlank c = false) :
    IsSolid (c :: body) := by
  suffices last : ∀ d ∈ body.getLast?, Text.isBlank d = false by
    refine ⟨List.cons_ne_nil c body, ?_, ?_⟩
    · rintro _ ⟨⟩
      exact solid
    · intro d hd
      rw [List.getLast?_cons] at hd
      cases behind : body.getLast? with
      | none =>
          rw [behind] at hd
          cases hd
          exact solid
      | some e =>
          rw [behind] at hd last
          cases hd
          exact last e rfl
  intro d hd
  generalize length : body.length = n at h
  cases starts_of_start? h with
  | mark found =>
      cases body with
      | nil => cases hd
      | cons e more =>
          unfold mark? at found
          split at found
          · rename_i token pair
            cases found
            obtain rfl : more = [] := by simpa using length
            cases hd
            exact isBlank_of_pairMark? pair
          · obtain ⟨token, -, same⟩ := Option.map_eq_some_iff.mp found
            rw [← (Prod.mk.inj same).2] at length
            cases length
  | number digit => exact isBlank_of_isDigit (isDigit_getLast_of_numberLength length.symm d hd)
  | negative minus digit =>
      exact isBlank_of_isDigit (isDigit_getLast_of_numberLength length.symm d hd)
  | quoted quote closed =>
      rw [← length] at closed
      rw [(quotedLength?_eq_length closed).2] at hd
      cases hd
      exact solid
  | placeholder percent found =>
      rw [← length] at found
      obtain ⟨-, kind, last⟩ := placeholderLength?_eq_length found
      rw [last] at hd
      cases hd
      cases kind <;> decide
  | word start =>
      exact isBlank_of_isNameChar ((run_eq_length_iff.mp length.symm).1 d (List.mem_of_getLast? hd))

end Shape

end DataFilter
