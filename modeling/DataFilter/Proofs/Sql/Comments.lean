import DataFilter.Proofs.Sql.Text

/-!
# Comments in SQL text

Two minus signs begin a comment, and so do a slash and an asterisk. Operators have these characters,
names and numbers do not, and an operator between or behind its operands stands between blanks. So
two of them can only meet where an operator in front of its operand is followed by an operator that
the operand begins with. The parentheses between the two are left out only if the second one binds
tighter (`precedence_lt_of_mem_stackedOperators`). Of the operators that are written with characters
of comments, that leaves the minus sign of subtraction in front of that of a negative number.
-/

namespace DataFilter

/-! ## Operators without parentheses between them -/

/-- The operator that the text of a tree begins with: one in front of its operand, with no
parenthesis before it. -/
def Node.leadingOperator? (place : Sql.Place) : Node → Option Operator
  | prefixed op _ _ => if place.needsParens op.precedence then none else some op
  | infixed left op _ grouping =>
    if place.needsParens op.precedence then none else left.leadingOperator? (.leftOf op grouping)
  | postfixed operand op grouping =>
    if place.needsParens op.precedence then none
    else operand.leadingOperator? (.leftOf op grouping)
  | _ => none

/-- The operators in front of their operands that have another one directly behind them, each with
the one behind it. -/
def Node.stackedOperators : Node → List (Operator × Operator)
  | prefixed op operand grouping =>
    (operand.leadingOperator? (.afterPrefix op grouping)).toList.map (op, ·) ++
      operand.stackedOperators
  | infixed left _ right _ => left.stackedOperators ++ right.stackedOperators
  | postfixed operand _ _ => operand.stackedOperators
  | collection _ predicate => predicate.stackedOperators
  | _ => []

theorem Sql.Place.needsParens_eq_false_iff {place : Sql.Place} {own : Nat} :
    place.needsParens own = false ↔
      place.precedence ≤ own ∧ (own = place.precedence → place.wrapEqual = false) := by
  simp [needsParens]

/-- Where an operator needs no parentheses, neither does one at its left end. -/
theorem Sql.Place.needsParens_leftOf {place : Sql.Place} {outer inner : Operator}
    {grouping : Associativity} (bare : place.needsParens outer.precedence = false)
    (h : (leftOf outer grouping).needsParens inner.precedence = false) :
    place.needsParens inner.precedence = false := by
  obtain ⟨fits, equal⟩ := needsParens_eq_false_iff.mp bare
  obtain ⟨tighter, -⟩ : outer.precedence ≤ inner.precedence ∧ _ := needsParens_eq_false_iff.mp h
  refine needsParens_eq_false_iff.mpr ⟨Nat.le_trans fits tighter, ?_⟩
  intro same
  exact equal (Nat.le_antisymm (same ▸ tighter) fits)

/-- An operator that a text begins with needs no parentheses there. -/
theorem Node.needsParens_of_leadingOperator? {tree : Node} {place : Sql.Place} {op : Operator}
    (h : tree.leadingOperator? place = some op) : place.needsParens op.precedence = false := by
  induction tree generalizing place with
  | prefixed other operand grouping =>
      obtain ⟨bare, rfl⟩ : place.needsParens other.precedence = false ∧ other = op := by
        simpa [leadingOperator?] using h
      exact bare
  | infixed left other right grouping ih =>
      obtain ⟨bare, inner⟩ : place.needsParens other.precedence = false ∧
          left.leadingOperator? (.leftOf other grouping) = some op := by
        simpa [leadingOperator?] using h
      exact Sql.Place.needsParens_leftOf bare (ih inner)
  | postfixed operand other grouping ih =>
      obtain ⟨bare, inner⟩ : place.needsParens other.precedence = false ∧
          operand.leadingOperator? (.leftOf other grouping) = some op := by
        simpa [leadingOperator?] using h
      exact Sql.Place.needsParens_leftOf bare (ih inner)
  | _ => cases h

/-- Behind any operator in front of its operand but `NOT`, only one that binds tighter has no
parenthesis before it. -/
theorem Node.precedence_lt_of_mem_stackedOperators {tree : Node} {front behind : Operator}
    (h : (front, behind) ∈ tree.stackedOperators) (other : front ≠ .not) :
    front.precedence < behind.precedence := by
  induction tree with
  | prefixed op operand grouping ih =>
      rcases List.mem_append.mp h with here | inner
      · obtain ⟨rfl, leading⟩ : op = front ∧
            operand.leadingOperator? (.afterPrefix op grouping) = some behind := by
          simpa [and_comm] using here
        have bare := needsParens_of_leadingOperator? leading
        obtain ⟨fits, equal⟩ := Sql.Place.needsParens_eq_false_iff.mp bare
        refine Nat.lt_of_le_of_ne fits fun same => ?_
        simpa [Sql.Place.afterPrefix, other] using equal same.symm
      · exact ih inner
  | infixed left op right grouping ihl ihr => exact (List.mem_append.mp h).elim ihl ihr
  | postfixed operand op grouping ih => exact ih h
  | collection parent predicate _ ih => exact ih h
  | _ => cases h

/-- In a tree that is built with every operator in its position, only those that stand in front of
an operand have another one directly behind them. -/
theorem Node.IsBuilt.position_of_mem_stackedOperators {tree : Node} (built : tree.IsBuilt)
    {front behind : Operator} (h : (front, behind) ∈ tree.stackedOperators) :
    front.position = .before := by
  induction tree with
  | prefixed op operand grouping ih =>
      obtain ⟨before, -, built⟩ := built
      rcases List.mem_append.mp h with here | inner
      · obtain ⟨_, -, ⟨⟩⟩ := List.mem_map.mp here
        exact before
      · exact ih built inner
  | infixed left op right grouping ihl ihr =>
      obtain ⟨-, -, first, second⟩ := built
      exact (List.mem_append.mp h).elim (ihl first) (ihr second)
  | postfixed operand op grouping ih => exact ih built.2.2 h
  | collection parent predicate _ ih => exact ih built.2 h
  | _ => cases h

namespace Sql

/-! ## Characters of comments -/

/-- The characters that comments begin with. -/
def commentMarks : List Char := ['-', '/', '*']

section Neighbours

variable {a b c : Char} {front back : List Char}

theorem pair_prefix_cons_iff : [a, b] <+: c :: back ↔ c = a ∧ back.head? = some b := by
  cases back with
  | nil => simp
  | cons d back => simp only [List.cons_prefix_cons, List.nil_prefix, List.head?_cons, and_true,
      Option.some_inj, eq_comm]

/-- Two characters are neighbours in one of two texts, or where the second one begins. -/
theorem pair_infix_append_iff : [a, b] <:+: front ++ back ↔
    [a, b] <:+: front ∨ [a, b] <:+: back ∨ front.getLast? = some a ∧ back.head? = some b := by
  induction front with
  | nil => simp
  | cons c front ih =>
      rw [List.cons_append, List.infix_cons_iff, ih, List.infix_cons_iff, pair_prefix_cons_iff,
        pair_prefix_cons_iff]
      cases front with
      | nil => simp [or_comm]
      | cons d front => simp [or_assoc]

/-- A character that begins no comment keeps the texts around it apart. -/
theorem pair_infix_append_cons_iff (ha : a ∈ commentMarks) (hb : b ∈ commentMarks)
    (hc : c ∉ commentMarks) :
    [a, b] <:+: front ++ c :: back ↔ [a, b] <:+: front ∨ [a, b] <:+: back := by
  have first : c ≠ a := fun same => hc (same ▸ ha)
  have second : c ≠ b := fun same => hc (same ▸ hb)
  rw [pair_infix_append_iff, List.infix_cons_iff, pair_prefix_cons_iff]
  simp [first, second]

theorem head?_append_cons_iff (hb : b ∈ commentMarks) (hc : c ∉ commentMarks) :
    (front ++ c :: back).head? = some b ↔ front.head? = some b := by
  have other : c ≠ b := fun same => hc (same ▸ hb)
  cases front <;> simp [other]

end Neighbours

/-- A text without the characters that comments begin with. -/
def IsUnmarked (text : List Char) : Prop := ∀ c ∈ text, c ∉ commentMarks

instance : DecidablePred IsUnmarked := fun text => List.decidableBAll (· ∉ commentMarks) text

section Conditions

variable {a b : Char} {text : List Char}

theorem isUnmarked_of_isRangeChar (h : text.all isRangeChar = true) : IsUnmarked text := by
  have refused : commentMarks.all (!isRangeChar ·) = true := by decide
  intro c hc mark
  have other := List.all_eq_true.mp refused c mark
  rw [List.all_eq_true.mp h c hc] at other
  cases other

theorem isUnmarked_parameter (number : Nat) : IsUnmarked ('$' :: Nat.toDigits 10 number) := by
  have digits := (isDigits_toDigits number).2
  have refused : commentMarks.all (!·.isDigit) = true := by decide
  intro c hc mark
  rcases List.mem_cons.mp hc with rfl | digit
  · exact absurd mark (by decide)
  · have := List.all_eq_true.mp refused c mark
    rw [digits c digit] at this
    cases this

theorem IsUnmarked.not_infix_pair (h : IsUnmarked text) (ha : a ∈ commentMarks) :
    ¬ [a, b] <:+: text :=
  fun found => h a (found.subset List.mem_cons_self) ha

theorem IsUnmarked.head?_ne (h : IsUnmarked text) (hb : b ∈ commentMarks) :
    text.head? ≠ some b :=
  fun found => h b (List.mem_of_mem_head? found) hb

theorem IsUnmarked.getLast?_ne (h : IsUnmarked text) (ha : a ∈ commentMarks) :
    text.getLast? ≠ some a :=
  fun found => h a (List.mem_of_getLast? found) ha

/-- An unmarked text in front changes nothing. -/
theorem IsUnmarked.pair_infix_append_iff (h : IsUnmarked text) (ha : a ∈ commentMarks)
    {back : List Char} :
    [a, b] <:+: text ++ back ↔ [a, b] <:+: back := by
  simp [Sql.pair_infix_append_iff, h.not_infix_pair ha, h.getLast?_ne ha]

/-- A text of one character, or without characters of comments. -/
def IsBrief (text : List Char) : Prop := IsUnmarked text ∨ ∃ c, text = [c]

theorem IsBrief.not_infix_pair (h : IsBrief text) (ha : a ∈ commentMarks) : ¬ [a, b] <:+: text := by
  rcases h with unmarked | ⟨c, rfl⟩
  · exact unmarked.not_infix_pair ha
  · intro found
    have := found.length_le
    simp at this

theorem IsBrief.head?_eq_some_iff (h : IsBrief text) (ha : a ∈ commentMarks) :
    text.head? = some a ↔ text = [a] := by
  rcases h with unmarked | ⟨c, rfl⟩
  · refine iff_of_false (unmarked.head?_ne ha) ?_
    rintro rfl
    exact unmarked a List.mem_cons_self ha
  · simp

theorem IsBrief.getLast?_eq_some_iff (h : IsBrief text) (ha : a ∈ commentMarks) :
    text.getLast? = some a ↔ text = [a] := by
  rcases h with unmarked | ⟨c, rfl⟩
  · refine iff_of_false (unmarked.getLast?_ne ha) ?_
    rintro rfl
    exact unmarked a List.mem_cons_self ha
  · simp

/-- An operator with a character of comments consists of it. -/
theorem isBrief_sql (op : Operator) : IsBrief op.sql.toList := by
  cases op <;> first
    | exact .inr ⟨_, rfl⟩
    | exact .inl (by decide)

theorem isBrief_prefixText (op : Operator) : IsBrief (prefixText op).toList := by
  cases op
  case not => exact .inl (by decide)
  all_goals exact isBrief_sql _

theorem pair_infix_wrap_iff (ha : a ∈ commentMarks) (hb : b ∈ commentMarks) (needed : Bool)
    (text : String) : [a, b] <:+: (wrap needed text).toList ↔ [a, b] <:+: text.toList := by
  cases needed with
  | false => rfl
  | true =>
      have opening : IsUnmarked ['('] := by decide
      have closing : ')' ∉ commentMarks := by decide
      show [a, b] <:+: ("(" ++ text ++ ")").toList ↔ _
      rw [String.toList_append, String.toList_append, List.append_assoc]
      exact (opening.pair_infix_append_iff ha).trans
        ((pair_infix_append_cons_iff ha hb closing).trans (by simp))

theorem head?_wrap_iff (hb : b ∈ commentMarks) (needed : Bool) (text : String) :
    (wrap needed text).toList.head? = some b ↔ needed = false ∧ text.toList.head? = some b := by
  cases needed with
  | false => simp [wrap]
  | true =>
      have opening : '(' ≠ b := by
        rintro rfl
        exact absurd hb (by decide)
      simp [wrap, opening]

end Conditions

/-! ## Where comments begin in a condition -/

section Compiles

variable {a b : Char} {around : Surroundings} {tree : Node} {out after : Output}
  {condition : Condition}

theorem head?_prefixText_append_iff (hb : b ∈ commentMarks) (op : Operator) (back : List Char) :
    ((prefixText op).toList ++ back).head? = some b ↔ (prefixText op).toList = [b] := by
  have nonempty : (prefixText op).toList ≠ [] := by cases op <;> decide
  rw [List.head?_append_of_ne_nil _ nonempty]
  exact (isBrief_prefixText op).head?_eq_some_iff hb

theorem toList_between (left op right : String) :
    (left ++ " " ++ op ++ " " ++ right).toList =
      left.toList ++ ' ' :: (op.toList ++ ' ' :: right.toList) := by
  simp

theorem toList_behind (operand op : String) :
    (operand ++ " " ++ op).toList = operand.toList ++ ' ' :: op.toList := by
  simp

/-- In its place, the text of a tree begins with a character of comments only if that is an operator
in front of an operand. -/
theorem Compiles.head?_eq_some_iff (h : Compiles around tree out condition after)
    (named : around.IsNamed) (hb : b ∈ commentMarks) (place : Place) :
    (condition.renderIn place).toList.head? = some b ↔
      ∃ op, tree.leadingOperator? place = some op ∧ (prefixText op).toList = [b] := by
  have blank : ' ' ∉ commentMarks := by decide
  induction h generalizing place with
  | literal v out =>
      rw [Condition.renderIn, String.toList_append, toList_toString]
      exact iff_of_false ((isUnmarked_parameter _).head?_ne hb) (by rintro ⟨op, ⟨⟩, -⟩)
  | field anchored found valid out =>
      have names := (Compiles.field anchored found valid out).isNamed named
      have unmarked := isUnmarked_of_isRangeChar (all_isRangeChar_dotted names.2)
      exact iff_of_false (unmarked.head?_ne hb) (by rintro ⟨op, ⟨⟩, -⟩)
  | collection ranges inner ih =>
      have opening : IsUnmarked "EXISTS (SELECT 1 FROM ".toList := by decide
      refine iff_of_false ?_ (by rintro ⟨op, ⟨⟩, -⟩)
      rw [Condition.renderIn, toList_existsText, List.head?_append_of_ne_nil _ (by decide)]
      exact opening.head?_ne hb
  | @prefixed _ op _ _ _ _ _ inner ih =>
      rw [Condition.renderIn, head?_wrap_iff hb, String.toList_append,
        head?_prefixText_append_iff hb]
      simp [Node.leadingOperator?]
  | infixed first second ihl ihr =>
      rw [Condition.renderIn, head?_wrap_iff hb, toList_between, head?_append_cons_iff hb blank]
      refine (and_congr_right' (ihl named _)).trans ?_
      simp [Node.leadingOperator?, and_assoc]
  | postfixed inner ih =>
      rw [Condition.renderIn, head?_wrap_iff hb, toList_behind, head?_append_cons_iff hb blank]
      refine (and_congr_right' (ih named _)).trans ?_
      simp [Node.leadingOperator?, and_assoc]

/-- Two characters of comments are neighbours in the text of a tree only where one operator has
another one directly behind it. -/
theorem Compiles.pair_infix_iff (h : Compiles around tree out condition after)
    (named : around.IsNamed) (ha : a ∈ commentMarks) (hb : b ∈ commentMarks) (place : Place) :
    [a, b] <:+: (condition.renderIn place).toList ↔
      ∃ front behind, (front, behind) ∈ tree.stackedOperators ∧
        (prefixText front).toList = [a] ∧ (prefixText behind).toList = [b] := by
  have blank : ' ' ∉ commentMarks := by decide
  induction h generalizing place with
  | literal v out =>
      rw [Condition.renderIn, String.toList_append, toList_toString]
      exact iff_of_false ((isUnmarked_parameter _).not_infix_pair ha) (by rintro ⟨_, _, ⟨⟩, -⟩)
  | field anchored found valid out =>
      have names := (Compiles.field anchored found valid out).isNamed named
      have unmarked := isUnmarked_of_isRangeChar (all_isRangeChar_dotted names.2)
      exact iff_of_false (unmarked.not_infix_pair ha) (by rintro ⟨_, _, ⟨⟩, -⟩)
  | collection ranges inner ih =>
      obtain ⟨range, row, -⟩ := ranges.isNamed named
      have opening : IsUnmarked "EXISTS (SELECT 1 FROM ".toList := by decide
      have source := isUnmarked_of_isRangeChar (range.all_isRangeChar row)
      have closing : ')' ∉ commentMarks := by decide
      rw [Condition.renderIn, toList_existsText, opening.pair_infix_append_iff ha,
        source.pair_infix_append_iff ha, pair_infix_append_cons_iff ha hb closing]
      refine (or_iff_left (by simp)).trans ?_
      exact ih (ranges.isNamed_inside named) _
  | @prefixed _ op _ grouping _ _ _ inner ih =>
      have alone := (isBrief_prefixText op).not_infix_pair (b := b) ha
      rw [Condition.renderIn, pair_infix_wrap_iff ha hb, String.toList_append,
        pair_infix_append_iff, inner.head?_eq_some_iff named hb,
        (isBrief_prefixText op).getLast?_eq_some_iff ha]
      -- the two meet inside of the operand, or one is of this operator and one of the operand's
      refine (or_iff_right alone).trans ((or_congr_left (ih named _)).trans ?_)
      simp only [Node.stackedOperators, List.mem_append, or_and_right, exists_or, List.mem_map,
        Option.mem_toList]
      rw [or_comm]
      refine or_congr_left ⟨?_, ?_⟩
      · rintro ⟨last, behind, leading, head⟩
        exact ⟨op, behind, ⟨behind, leading, rfl⟩, last, head⟩
      · rintro ⟨_, behind, ⟨_, leading, ⟨⟩⟩, last, head⟩
        exact ⟨last, behind, leading, head⟩
  | @infixed _ _ _ op _ _ _ _ _ _ first second ihl ihr =>
      have alone := (isBrief_sql op).not_infix_pair (b := b) ha
      rw [Condition.renderIn, pair_infix_wrap_iff ha hb, toList_between,
        pair_infix_append_cons_iff ha hb blank, pair_infix_append_cons_iff ha hb blank]
      refine (or_congr (ihl named _) ((or_iff_right alone).trans (ihr named _))).trans ?_
      simp only [Node.stackedOperators, List.mem_append, or_and_right, exists_or]
  | @postfixed _ op _ _ _ _ _ inner ih =>
      have alone := (isBrief_sql op).not_infix_pair (b := b) ha
      rw [Condition.renderIn, pair_infix_wrap_iff ha hb, toList_behind,
        pair_infix_append_cons_iff ha hb blank]
      exact (or_iff_left alone).trans (ih named _)

end Compiles

theorem eq_of_toList_prefixText_minus {op : Operator} (h : (prefixText op).toList = ['-']) :
    op = .subtract ∨ op = .negative := by
  revert h
  cases op <;> decide +kernel

theorem eq_of_toList_prefixText_slash {op : Operator} (h : (prefixText op).toList = ['/']) :
    op = .divide := by
  revert h
  cases op <;> decide +kernel

theorem eq_of_toList_prefixText_asterisk {op : Operator} (h : (prefixText op).toList = ['*']) :
    op = .multiply := by
  revert h
  cases op <;> decide +kernel

/-- Of the operators that are minus signs, only the sign of a number binds tighter than the
other. -/
theorem exists_stacked_minus_iff {tree : Node} :
    (∃ front behind, (front, behind) ∈ tree.stackedOperators ∧
        (prefixText front).toList = ['-'] ∧ (prefixText behind).toList = ['-']) ↔
      (.subtract, .negative) ∈ tree.stackedOperators := by
  constructor
  · rintro ⟨front, behind, stacked, first, second⟩
    have other : front ≠ .not := by
      rintro rfl
      exact absurd first (by decide)
    have tighter := Node.precedence_lt_of_mem_stackedOperators stacked other
    rcases eq_of_toList_prefixText_minus first with rfl | rfl <;>
      rcases eq_of_toList_prefixText_minus second with rfl | rfl
    case inl.inr => exact stacked
    all_goals exact absurd tighter (by decide)
  · intro stacked
    exact ⟨_, _, stacked, rfl, rfl⟩

/-- Division and multiplication bind equally tightly, so they are never stacked. -/
theorem not_exists_stacked_slash {tree : Node} :
    ¬ ∃ front behind, (front, behind) ∈ tree.stackedOperators ∧
      (prefixText front).toList = ['/'] ∧ (prefixText behind).toList = ['*'] := by
  rintro ⟨front, behind, stacked, first, second⟩
  cases eq_of_toList_prefixText_slash first
  cases eq_of_toList_prefixText_asterisk second
  exact absurd (Node.precedence_lt_of_mem_stackedOperators stacked nofun) (by decide)

/-- The text of a compiled tree has two minus signs in a row exactly if somewhere a subtraction
stands in front of an operand that begins with the sign of a negative number; it never has a slash
with an asterisk behind it. No comment begins in the text of a tree that is built with every
operator in its position: there a subtraction stands between its operands. -/
theorem comment_infix_ofNode {around : Surroundings} (outermost : around.IsOutermost) {tree : Node}
    {compiled : Compiled} (h : ofNode around tree = .ok compiled) :
    ("--".toList <:+: compiled.sql.toList ↔ (.subtract, .negative) ∈ tree.stackedOperators) ∧
      ¬ "/*".toList <:+: compiled.sql.toList ∧
      (tree.IsBuilt → ¬ "--".toList <:+: compiled.sql.toList) := by
  obtain ⟨condition, out, compiles, rfl⟩ := compiles_of_ofNode h
  have named := outermost.isNamed
  have minus : "--".toList <:+: condition.render.toList ↔
      (.subtract, .negative) ∈ tree.stackedOperators :=
    (compiles.pair_infix_iff named (by decide) (by decide) .top).trans exists_stacked_minus_iff
  have slash : ¬ "/*".toList <:+: condition.render.toList := by
    intro found
    exact not_exists_stacked_slash
      ((compiles.pair_infix_iff named (by decide) (by decide) .top).mp found)
  refine ⟨minus, slash, ?_⟩
  intro built found
  cases built.position_of_mem_stackedOperators (minus.mp found)

/-- A sign in front of a sign, a subtraction in front of a product that begins with a sign, and an
asterisk behind a slash. -/
def signedTree : Node :=
  .between
    (.collection (.object .globalScope "lines")
      (.between
        (.before .negative (.before .negative (.field .item "tax"))) .lessThan
        (.before .subtract
          (.between (.before .negative (.field .item "price")) .multiply (.field .item "count")))))
    .divide (.before .multiply (.literal (.integer 2)))

theorem comment_infix_signedTree : ∃ compiled,
    ofNode .unknown signedTree = .ok compiled ∧
      compiled.sql = "EXISTS (SELECT 1 FROM unnest(lines) AS line_1 " ++
        "WHERE -(-line_1.tax) < --line_1.price * line_1.count) / (*$1)" ∧
      ("--".toList <:+: compiled.sql.toList ↔
        (.subtract, .negative) ∈ signedTree.stackedOperators) ∧
      ¬ "/*".toList <:+: compiled.sql.toList ∧
      (signedTree.IsBuilt → ¬ "--".toList <:+: compiled.sql.toList) :=
  ⟨_, rfl, by decide +kernel, comment_infix_ofNode .unknown rfl⟩

/-- Subtraction, in front of the sign of a number, begins a comment. -/
theorem comment_begins_in_text : ∃ compiled,
    ofNode .unknown (.before .subtract (.before .negative (.field .globalScope "a"))) =
        .ok compiled ∧
      compiled.sql = "--a" ∧ "--".toList <:+: compiled.sql.toList :=
  ⟨_, rfl, by decide +kernel, by decide +kernel⟩

end Sql

end DataFilter
