import DataFilter.Proofs.Sql.Lexing

/-!
# The parentheses are sufficient

The symbols of a condition are read as the condition itself: no operator takes an operand away from
another one. What has to be known of the symbols of an operand is how weak the operators may be that
are read after it (`Reads`), and that the parentheses of its place keep out all operators that are
too weak for it (`Fits`). The predicate of a relational test follows the joins behind an `AND`, so
it is read as a part of a longer conjunction (`Follows`).
-/

namespace DataFilter.Sql

/-! ## The phrase of a condition -/

/-- The conjunction of two conditions, as it is read: the parts of the right one follow the left one
one after the other. -/
def Phrase.conjoin (left : Phrase) : Phrase → Phrase
  | infixed a .and b => infixed (left.conjoin a) .and b
  | p => infixed left .and p

def Join.phrase (rowName : String) (join : Join) : Phrase :=
  .infixed (.column [rowName, join.child]) .equal (.column [join.owner, join.parent])

/-- A condition with joins behind it. -/
def Phrase.joined (rowName : String) (left : Phrase) (joins : List Join) : Phrase :=
  joins.foldl (fun left join => .infixed left .and (join.phrase rowName)) left

/-- The condition of a subquery: that on the elements, behind the joins. -/
def Source.wherePhrase (rowName : String) (p : Phrase) : Source → Phrase
  | elements _ | rows _ [] => p
  | rows _ (join :: joins) => (Phrase.joined rowName (join.phrase rowName) joins).conjoin p

def Source.range : Source → Range
  | elements array => .elements array
  | rows table _ => .table table

/-- What a condition is meant to be read as. -/
def Condition.phrase : Condition → Phrase
  | parameter number => .parameter number
  | column names => .column names
  | prefixed op operand _ => .prefixed op operand.phrase
  | infixed left op right _ => .infixed left.phrase op right.phrase
  | postfixed operand op _ => .postfixed operand.phrase op
  | .exists source rowName condition =>
    .exists source.range rowName (source.wherePhrase rowName condition.phrase)

theorem Phrase.conjuncts_conjoin (left p : Phrase) :
    (left.conjoin p).conjuncts = left.conjuncts ++ p.conjuncts := by
  induction p with
  | infixed a op b iha ihb =>
      cases op
      case and => rw [conjoin, conjuncts, conjuncts, iha, List.append_assoc]
      all_goals rfl
  | _ => rfl

theorem Phrase.conjuncts_joined (rowName : String) (left : Phrase) (joins : List Join) :
    (left.joined rowName joins).conjuncts = left.conjuncts ++ joins.map (·.phrase rowName) := by
  induction joins generalizing left with
  | nil => simp [joined]
  | cons join joins ih =>
      show (joined rowName (.infixed left .and (join.phrase rowName)) joins).conjuncts = _
      rw [ih, conjuncts, List.map_cons, List.append_assoc]
      rfl

/-- The parts of the condition of a subquery: the joins, and then the parts of the condition on the
elements. -/
theorem Source.conjuncts_wherePhrase (table rowName : String) (joins : List Join) (p : Phrase) :
    (Source.wherePhrase rowName p (.rows table joins)).conjuncts =
      joins.map (·.phrase rowName) ++ p.conjuncts := by
  cases joins with
  | nil => rfl
  | cons join joins =>
      rw [wherePhrase, Phrase.conjuncts_conjoin, Phrase.conjuncts_joined]
      rfl

/-! ## Reading symbols -/

/-- No operator that binds more tightly than `level` follows, and no further name of a column. -/
def Stops (level : Nat) (rest : List Symbol) : Prop :=
  rest.head? ≠ some .dot ∧
    ∀ op after, trailing? rest = some (op, after) → op.position ≠ .before ∧ op.precedence ≤ level

/-- The symbols are read as the phrase wherever operators of strength `level` are, and the phrase
may be the left operand of operators up to the strength `most`. -/
def Reads (symbols : List Symbol) (level most : Nat) (p : Phrase) : Prop :=
  ∀ n least rest, symbols.length < n → least ≤ level → Stops level rest →
    ∃ m, n ≤ m + symbols.length ∧
      expression n least (symbols ++ rest) = operators m least most p rest

theorem Stops.mono {level level' : Nat} {rest : List Symbol} (h : Stops level rest)
    (hle : level ≤ level') : Stops level' rest :=
  ⟨h.1, fun op after found => ⟨(h.2 op after found).1, Nat.le_trans (h.2 op after found).2 hle⟩⟩

theorem stops_nil : Stops 0 [] := ⟨by simp, by simp [trailing?]⟩

theorem stops_closeParen (rest : List Symbol) : Stops 0 (.closeParen :: rest) :=
  ⟨by simp, by simp [trailing?]⟩

theorem trailing?_append {op : Operator} (h : op.position ≠ .before) (rest : List Symbol) :
    trailing? (operatorSymbols op ++ rest) = some (op, rest) := by
  cases op <;> first
    | rfl
    | exact absurd rfl h

theorem stops_operator (op : Operator) (h : op.position ≠ .before) {level : Nat}
    (hle : op.precedence ≤ level) (rest : List Symbol) :
    Stops level (operatorSymbols op ++ rest) := by
  refine ⟨by cases op <;> simp [operatorSymbols], fun found after heq => ?_⟩
  rw [trailing?_append h] at heq
  cases heq
  exact ⟨h, hle⟩

/-- Reading stops where no operator may follow. -/
theorem operators_stop {n least most : Nat} {p : Phrase} {rest : List Symbol}
    (h : ∀ op after, trailing? rest = some (op, after) →
      op.precedence < least ∨ most < op.precedence) :
    operators (n + 1) least most p rest = some (p, rest) := by
  rw [operators]
  split
  · rename_i op after found
    rw [if_neg]
    have := h op after found
    omega
  · rfl

/-- An operand is read up to an operator that is too weak for its place. -/
theorem Reads.expression_eq {symbols rest : List Symbol} {level most n least : Nat} {p : Phrase}
    (h : Reads symbols level most p) (hn : symbols.length < n) (hleast : least ≤ level)
    (hrest : Stops level rest)
    (weaker : ∀ op after, trailing? rest = some (op, after) → op.precedence < least) :
    expression n least (symbols ++ rest) = some (p, rest) := by
  obtain ⟨m, hm, heq⟩ := h n least rest hn hleast hrest
  obtain ⟨k, rfl⟩ : ∃ k, m = k + 1 := ⟨m - 1, by omega⟩
  rw [heq, operators_stop fun op after found => .inl (weaker op after found)]

/-- A condition in parentheses, or behind the head of a subquery, is read up to the parenthesis. -/
theorem Reads.expression_close {symbols rest : List Symbol} {level most n : Nat} {p : Phrase}
    (h : Reads symbols level most p) (hn : symbols.length < n) :
    expression n 0 (symbols ++ .closeParen :: rest) = some (p, .closeParen :: rest) :=
  h.expression_eq hn (Nat.zero_le level) ((stops_closeParen rest).mono (Nat.zero_le level))
    (by simp [trailing?])

/-! ## Operands -/

theorem expression_primary {n least : Nat} {symbol : Symbol} {symbols rest : List Symbol}
    {p : Phrase} (operand : symbol.leading? = none)
    (h : primary n symbol symbols = some (p, rest)) :
    expression (n + 1) least (symbol :: symbols) = operators n least tightest p rest := by
  rw [expression, operand]
  simp [h]

theorem reads_parameter (number : Nat) :
    Reads [.parameter number] tightest tightest (.parameter number) := by
  intro n least rest hn _ _
  obtain ⟨k, rfl⟩ : ∃ k, n = k + 2 := ⟨n - 2, by simp at hn; omega⟩
  exact ⟨k + 1, by simp, expression_primary rfl rfl⟩

theorem dottedSymbols_cons (name : String) (names : List String) :
    dottedSymbols (name :: names) = .name name :: names.flatMap fun n => [.dot, .name n] := by
  induction names generalizing name with
  | nil => rfl
  | cons next names ih =>
      have := ih next
      simp only [dottedSymbols, List.map_cons, List.intersperse_cons_cons] at this ⊢
      simp [this]

theorem dottedNames_append (names : List String) {rest : List Symbol}
    (h : rest.head? ≠ some .dot) :
    dottedNames ((names.flatMap fun n => [Symbol.dot, .name n]) ++ rest) = (names, rest) := by
  induction names with
  | nil =>
      show dottedNames rest = _
      unfold dottedNames
      split
      · exact absurd rfl h
      · rfl
  | cons name names ih => simp [dottedNames, ih]

theorem column?_append {names : List String} (nonempty : names ≠ []) {rest : List Symbol}
    (h : rest.head? ≠ some .dot) : column? (dottedSymbols names ++ rest) = some (names, rest) := by
  obtain ⟨name, names, rfl⟩ := List.exists_cons_of_ne_nil nonempty
  rw [dottedSymbols_cons, List.cons_append, column?, dottedNames_append names h]

theorem reads_column {names : List String} (nonempty : names ≠ []) :
    Reads (dottedSymbols names) tightest tightest (.column names) := by
  intro n least rest hn _ hrest
  have found := column?_append nonempty hrest.1
  obtain ⟨name, names, rfl⟩ := List.exists_cons_of_ne_nil nonempty
  rw [dottedSymbols_cons] at hn found ⊢
  obtain ⟨k, rfl⟩ : ∃ k, n = k + 2 := ⟨n - 2, by simp at hn; omega⟩
  refine ⟨k + 1, by rw [List.length_cons]; omega, expression_primary rfl ?_⟩
  rw [List.cons_append] at found
  rw [primary, List.append_eq, found]
  · rfl
  all_goals simp

theorem reads_parens {symbols : List Symbol} {level most : Nat} {p : Phrase}
    (h : Reads symbols level most p) :
    Reads (.openParen :: (symbols ++ [.closeParen])) tightest tightest p := by
  intro n least rest hn _ _
  simp only [List.length_cons, List.length_append, List.length_nil] at hn
  obtain ⟨k, rfl⟩ : ∃ k, n = k + 2 := ⟨n - 2, by omega⟩
  refine ⟨k + 1, by simp; omega, ?_⟩
  rw [List.cons_append, List.append_assoc]
  refine expression_primary rfl ?_
  rw [primary, List.singleton_append, h.expression_close (by omega)]
  rfl

/-! ## Operators -/

/-- No other operator binds just as tightly as one in front of its operand. -/
theorem precedence_ne {op other : Operator} (before : op.position = .before)
    (behind : other.position ≠ .before) : other.precedence ≠ op.precedence := by
  cases op <;> cases before <;> cases other <;> first
    | decide
    | exact absurd rfl behind

theorem reads_leading {op : Operator} (before : op.position = .before) {symbols : List Symbol}
    {level most : Nat} {p : Phrase} (h : Reads symbols level most p) (hle : op.precedence ≤ level) :
    Reads (operatorSymbols op ++ symbols) op.precedence op.precedence (.prefixed op p) := by
  intro n least rest hn hleast hrest
  obtain ⟨symbol, single, leading⟩ :
      ∃ symbol, operatorSymbols op = [symbol] ∧ symbol.leading? = some op := by
    cases op <;> first
      | exact ⟨_, rfl, rfl⟩
      | cases before
  rw [single, List.length_append, List.length_singleton] at hn
  obtain ⟨k, rfl⟩ : ∃ k, n = k + 1 := ⟨n - 1, by omega⟩
  have weaker (other : Operator) (after : List Symbol)
      (found : trailing? rest = some (other, after)) : other.precedence < op.precedence := by
    obtain ⟨behind, weak⟩ := hrest.2 other after found
    exact Nat.lt_of_le_of_ne weak (precedence_ne before behind)
  have operand := h.expression_eq (n := k) (by omega) hle (hrest.mono hle) weaker
  refine ⟨k, by rw [single]; simp only [List.length_append, List.length_singleton]; omega, ?_⟩
  rw [single, List.cons_append, List.nil_append, List.cons_append, expression, leading]
  simp [hleast, operand]

/-- An operator that follows an operand is taken, if it is neither too weak nor too tight. -/
theorem operators_between (op : Operator) (between : op.position = .between) {n least most : Nat}
    (hleast : least ≤ op.precedence) (hmost : op.precedence ≤ most) {left right : Phrase}
    {symbols rest : List Symbol}
    (h : expression n (op.precedence + 1) symbols = some (right, rest)) :
    operators (n + 1) least most left (operatorSymbols op ++ symbols) =
      operators n least op.reach (.infixed left op right) rest := by
  rw [operators, trailing?_append (by rw [between]; decide)]
  simp [hleast, hmost, between, h]

theorem operators_after (op : Operator) (after : op.position = .after) {n least most : Nat}
    (hleast : least ≤ op.precedence) (hmost : op.precedence ≤ most) (left : Phrase)
    (rest : List Symbol) :
    operators (n + 1) least most left (operatorSymbols op ++ rest) =
      operators n least op.reach (.postfixed left op) rest := by
  rw [operators, trailing?_append (by rw [after]; decide)]
  simp [hleast, hmost, after]

theorem operatorSymbols_length_pos (op : Operator) : 0 < (operatorSymbols op).length := by
  cases op <;> decide

theorem reads_between (op : Operator) (between : op.position = .between) {a b : List Symbol}
    {la ma lb mb : Nat} {p q : Phrase} (ha : Reads a la ma p) (hb : Reads b lb mb q)
    (hla : op.precedence ≤ la) (hma : op.precedence ≤ ma) (hlb : op.precedence < lb) :
    Reads (a ++ (operatorSymbols op ++ b)) op.precedence op.reach (.infixed p op q) := by
  intro n least rest hn hleast hrest
  have behind : op.position ≠ .before := by rw [between]; decide
  have hop := operatorSymbols_length_pos op
  simp only [List.length_append] at hn
  obtain ⟨m, hm, left⟩ := ha n least (operatorSymbols op ++ (b ++ rest)) (by omega) (by omega)
    (stops_operator op behind hla _)
  obtain ⟨k, rfl⟩ : ∃ k, m = k + 1 := ⟨m - 1, by omega⟩
  have right : expression k (op.precedence + 1) (b ++ rest) = some (q, rest) :=
    hb.expression_eq (by omega) hlb (hrest.mono (by omega)) fun other after found =>
      Nat.lt_succ_of_le (hrest.2 other after found).2
  refine ⟨k, by simp only [List.length_append]; omega, ?_⟩
  rw [List.append_assoc, List.append_assoc, left, operators_between op between hleast hma right]

theorem reads_after (op : Operator) (after : op.position = .after) {a : List Symbol}
    {la ma : Nat} {p : Phrase} (ha : Reads a la ma p) (hla : op.precedence ≤ la)
    (hma : op.precedence ≤ ma) :
    Reads (a ++ operatorSymbols op) op.precedence op.reach (.postfixed p op) := by
  intro n least rest hn hleast hrest
  have behind : op.position ≠ .before := by rw [after]; decide
  have hop := operatorSymbols_length_pos op
  simp only [List.length_append] at hn
  obtain ⟨m, hm, left⟩ := ha n least (operatorSymbols op ++ rest) (by omega) (by omega)
    (stops_operator op behind hla _)
  obtain ⟨k, rfl⟩ : ∃ k, m = k + 1 := ⟨m - 1, by omega⟩
  refine ⟨k, by simp only [List.length_append]; omega, ?_⟩
  rw [List.append_assoc, left, operators_after op after hleast hma]

/-! ## Conjunctions behind joins -/

/-- Behind an `AND`, the symbols are read as a continuation of the conjunction on the left. -/
def Follows (symbols : List Symbol) (p : Phrase) : Prop :=
  ∀ n least most left rest, symbols.length + 1 < n → least ≤ 2 → 2 ≤ most → Stops 2 rest →
    ∃ m, n ≤ m + (symbols.length + 1) ∧
      operators n least most left (.keyword .and :: (symbols ++ rest)) =
        operators m least 2 (left.conjoin p) rest

/-- What binds more tightly than `AND` is one more part of the conjunction. -/
theorem follows_of_reads {symbols : List Symbol} {level most : Nat} {p : Phrase}
    (h : Reads symbols level most p) (tight : 2 < level)
    (single : ∀ left, Phrase.conjoin left p = .infixed left .and p) : Follows symbols p := by
  intro n least most left rest hn hleast hmost hrest
  obtain ⟨k, rfl⟩ : ∃ k, n = k + 1 := ⟨n - 1, by omega⟩
  have right : expression k 3 (symbols ++ rest) = some (p, rest) :=
    h.expression_eq (by omega) tight (hrest.mono (by omega)) fun other after found =>
      Nat.lt_succ_of_le (hrest.2 other after found).2
  refine ⟨k, by omega, ?_⟩
  rw [single]
  exact operators_between .and rfl hleast hmost right

theorem follows_and {a b : List Symbol} {level most : Nat} {p q : Phrase} (ha : Follows a p)
    (hb : Reads b level most q) (tight : 2 < level) :
    Follows (a ++ (operatorSymbols .and ++ b)) (.infixed p .and q) := by
  intro n least most left rest hn hleast hmost hrest
  simp only [operatorSymbols, List.length_append, List.length_singleton] at hn
  have stops : Stops 2 (operatorSymbols .and ++ (b ++ rest)) :=
    stops_operator .and (by decide) (Nat.le_refl 2) _
  obtain ⟨m, hm, first⟩ := ha n least most left _ (by omega) hleast hmost stops
  obtain ⟨k, rfl⟩ : ∃ k, m = k + 1 := ⟨m - 1, by omega⟩
  have right : expression k 3 (b ++ rest) = some (q, rest) :=
    hb.expression_eq (by omega) tight (hrest.mono (by omega)) fun other after found =>
      Nat.lt_succ_of_le (hrest.2 other after found).2
  refine ⟨k, by simp only [operatorSymbols, List.length_append, List.length_singleton]; omega, ?_⟩
  rw [List.append_assoc, List.append_assoc, first]
  exact operators_between .and rfl hleast (Nat.le_refl 2) right

theorem reads_join (rowName : String) (join : Join) :
    Reads (join.symbols rowName) 5 4 (join.phrase rowName) := by
  have column (names : List String) (h : names ≠ []) := reads_column h
  exact reads_between .equal rfl (column [rowName, join.child] (by simp))
    (column [join.owner, join.parent] (by simp)) (by decide) (by decide) (by decide)

/-- Behind a condition the joins are read, and then the condition on the rows. -/
theorem follows_joins (rowName : String) (joins : List Join) {symbols : List Symbol} {p : Phrase}
    (h : Follows symbols p) {n most : Nat} (left : Phrase) {rest : List Symbol}
    (hn : (joinSymbols rowName joins).length + symbols.length + 1 < n) (hmost : 2 ≤ most)
    (hrest : Stops 2 rest) :
    ∃ m, 0 < m ∧
      operators n 0 most left (.keyword .and :: (joinSymbols rowName joins ++ (symbols ++ rest))) =
        operators m 0 2 ((left.joined rowName joins).conjoin p) rest := by
  -- each join is taken into the conjunction on the left, and the budget for the rest gets smaller
  induction joins generalizing n most left with
  | nil =>
      simp only [joinSymbols, List.flatMap_nil, List.length_nil] at hn
      obtain ⟨m, hm, heq⟩ := h n 0 most left rest (by omega) (by omega) hmost hrest
      exact ⟨m, by omega, heq⟩
  | cons join joins ih =>
      have split : joinSymbols rowName (join :: joins) =
          join.symbols rowName ++ (.keyword .and :: joinSymbols rowName joins) := by
        simp [joinSymbols]
      rw [split] at hn ⊢
      simp only [List.length_append, List.length_cons] at hn
      have part := follows_of_reads (reads_join rowName join) (by decide) fun _ => rfl
      have stops : Stops 2 (.keyword .and :: (joinSymbols rowName joins ++ (symbols ++ rest))) :=
        stops_operator .and (by decide) (Nat.le_refl 2) _
      obtain ⟨m, hm, first⟩ := part n 0 most left _ (by omega) (by omega) hmost stops
      obtain ⟨k, hk, others⟩ :=
        ih (.infixed left .and (join.phrase rowName)) (by omega : _ < m) (Nat.le_refl 2)
      refine ⟨k, hk, ?_⟩
      rw [List.append_assoc, List.cons_append, first]
      exact others

/-! ## Collection tests -/

/-- The symbols in front of the condition on the elements, behind `WHERE`. -/
def Source.whereSymbols (rowName : String) : Source → List Symbol
  | elements _ => []
  | rows _ joins => joinSymbols rowName joins

theorem subquery?_append {source : Source} (rowName : String) (plain : source.IsPlain)
    (rest : List Symbol) :
    subquery? (.openParen :: .keyword .select :: .number 1 :: .keyword .from ::
        (source.symbols rowName ++ rest)) =
      some (source.range, rowName, source.whereSymbols rowName ++ rest) := by
  cases source with
  | elements array =>
      have found : range? (Source.symbols rowName (.elements array) ++ rest) =
          some (.elements array, .keyword .as :: .name rowName :: .keyword .where :: rest) := by
        rw [Source.symbols, List.cons_append, List.cons_append, List.append_assoc, range?,
          column?_append plain.1 (by simp)]
        rfl
      simp [subquery?, expect, found, Source.range, Source.whereSymbols]
  | rows table joins =>
      have found : range? (Source.symbols rowName (.rows table joins) ++ rest) =
          some (.table table, .keyword .as :: .name rowName :: .keyword .where ::
            (joinSymbols rowName joins ++ rest)) := by
        rw [Source.symbols]
        unfold range?
        split
        · rename_i heq
          cases heq
        · rename_i heq
          cases heq
          rfl
        · rename_i other
          exact absurd rfl (other _ _)
      simp [subquery?, expect, found, Source.range, Source.whereSymbols]

/-- The condition of a subquery is read up to the parenthesis that ends the test. -/
theorem expression_where {symbols rest : List Symbol} {level most n : Nat} {p : Phrase}
    (h : Reads symbols level most p) (source : Source) (rowName : String)
    (follows : source.whereSymbols rowName ≠ [] → Follows symbols p)
    (hn : (source.whereSymbols rowName).length + symbols.length < n) :
    expression n 0 (source.whereSymbols rowName ++ (symbols ++ .closeParen :: rest)) =
      some (source.wherePhrase rowName p, .closeParen :: rest) := by
  have stops := stops_closeParen rest
  -- without joins the condition stands alone, with joins it is the last part of a conjunction
  match source with
  | .elements _ | .rows _ [] =>
      simp only [Source.whereSymbols, joinSymbols, List.flatMap_nil, List.length_nil] at hn
      exact h.expression_close (by omega)
  | .rows table (join :: joins) =>
      have split : Source.whereSymbols rowName (.rows table (join :: joins)) =
          join.symbols rowName ++ (.keyword .and :: joinSymbols rowName joins) := by
        simp [Source.whereSymbols, joinSymbols]
      rw [split] at follows hn ⊢
      simp only [List.length_append, List.length_cons] at hn
      obtain ⟨m, hm, first⟩ := reads_join rowName join n 0
        (.keyword .and :: (joinSymbols rowName joins ++ (symbols ++ .closeParen :: rest)))
        (by omega) (by omega) (stops_operator .and (by decide) (by decide) _)
      have conjunction : Follows symbols p := follows (by simp)
      obtain ⟨k, hk, others⟩ := follows_joins rowName joins conjunction (join.phrase rowName)
        (by omega : _ < m) (by decide : 2 ≤ 4) (stops.mono (Nat.zero_le 2))
      obtain ⟨k, rfl⟩ : ∃ j, k = j + 1 := ⟨k - 1, by omega⟩
      rw [List.append_assoc, List.cons_append, first, others, operators_stop (by simp [trailing?])]
      rfl

theorem reads_exists {symbols : List Symbol} {level most : Nat} {p : Phrase}
    (h : Reads symbols level most p) {source : Source} (plain : source.IsPlain)
    (rowName : String) (follows : source.whereSymbols rowName ≠ [] → Follows symbols p) :
    Reads (.keyword .exists :: .openParen :: .keyword .select :: .number 1 :: .keyword .from ::
        (source.symbols rowName ++ (symbols ++ [.closeParen])))
      tightest tightest (.exists source.range rowName (source.wherePhrase rowName p)) := by
  intro n least rest hn _ _
  have shorter : (source.whereSymbols rowName).length ≤ (source.symbols rowName).length := by
    cases source with
    | elements array => exact Nat.zero_le _
    | rows table joins =>
        simp only [Source.whereSymbols, Source.symbols, List.length_cons]
        omega
  simp only [List.length_cons, List.length_append, List.length_nil] at hn
  obtain ⟨k, rfl⟩ : ∃ k, n = k + 2 := ⟨n - 2, by omega⟩
  refine ⟨k + 1, by simp only [List.length_cons, List.length_append]; omega, ?_⟩
  simp only [List.cons_append, List.append_assoc, List.nil_append]
  refine expression_primary rfl ?_
  rw [primary, subquery?_append rowName plain]
  simp only [Option.bind_eq_bind, Option.bind_some]
  rw [expression_where h source rowName follows (by omega)]
  rfl

/-! ## Conditions -/

/-- The symbols are read as the phrase, and as nothing weaker than their place allows. -/
def Fits (place : Place) (symbols : List Symbol) (p : Phrase) : Prop :=
  ∃ level most, Reads symbols level most p ∧ place.precedence ≤ level ∧
    (place.wrapEqual = true → place.precedence < level) ∧ place.precedence ≤ most

/-- A place around which an operator can be: comparisons are kept out of comparisons. -/
def Place.IsUsual (place : Place) : Prop :=
  place.precedence ≤ 9 ∧ (place.precedence = 5 → place.wrapEqual = true)

theorem Place.isUsual_afterPrefix {op : Operator} (before : op.position = .before) :
    (Place.afterPrefix op op.associativity).IsUsual := by
  cases op <;> cases before <;> exact ⟨by decide, by decide⟩

theorem Place.isUsual_leftOf (op : Operator) : (Place.leftOf op op.associativity).IsUsual := by
  cases op <;> exact ⟨by decide, by decide⟩

theorem Place.isUsual_rightOf (op : Operator) : (Place.rightOf op op.associativity).IsUsual := by
  cases op <;> exact ⟨by decide, by decide⟩

theorem Source.isUsual_place (source : Source) : source.place.IsUsual := by
  cases source with
  | elements array => exact ⟨Nat.zero_le 9, nofun⟩
  | rows table joins => exact ⟨by show 2 ≤ 9; decide, nofun⟩

theorem Operator.reach_eq (op : Operator) :
    op.reach = if op.precedence = 5 then 4 else op.precedence := by
  cases op <;> rfl

theorem fits_tightest {place : Place} (usual : place.IsUsual) {symbols : List Symbol} {p : Phrase}
    (h : Reads symbols tightest tightest p) : Fits place symbols p := by
  have weaker : place.precedence < tightest := Nat.lt_succ_of_le usual.1
  exact ⟨tightest, tightest, h, Nat.le_of_lt weaker, fun _ => weaker, Nat.le_of_lt weaker⟩

/-- An operator that is too weak for its place stands in parentheses. -/
theorem fits_wrap {place : Place} (usual : place.IsUsual) {op : Operator} {symbols : List Symbol}
    {p : Phrase} (h : Reads symbols op.precedence op.reach p) :
    Fits place (wrapSymbols (place.needsParens op.precedence) symbols) p := by
  cases needed : place.needsParens op.precedence with
  | true => exact fits_tightest usual (reads_parens h)
  | false =>
      obtain ⟨-, comparison⟩ := usual
      simp only [Place.needsParens, Bool.or_eq_false_iff, Bool.and_eq_false_iff,
        decide_eq_false_iff_not, Nat.not_lt] at needed
      obtain ⟨strong, equal⟩ := needed
      refine ⟨op.precedence, op.reach, h, strong, fun wrapped => ?_, ?_⟩
      · rw [wrapped] at equal
        simp only [Bool.true_eq_false, or_false] at equal
        omega
      · -- a comparison may stand to the left of weaker operators only
        rw [Operator.reach_eq]
        split
        · by_cases five : place.precedence = 5
          · rw [comparison five] at equal
            simp only [Bool.true_eq_false, or_false] at equal
            omega
          · omega
        · exact strong

theorem fits_leading {op : Operator} (before : op.position = .before) {symbols : List Symbol}
    {p : Phrase} (h : Fits (.afterPrefix op op.associativity) symbols p) {place : Place}
    (usual : place.IsUsual) :
    Fits place (wrapSymbols (place.needsParens op.precedence) (operatorSymbols op ++ symbols))
      (.prefixed op p) := by
  obtain ⟨level, most, reads, strong, -⟩ := h
  have reach : op.reach = op.precedence := by cases op <;> first | rfl | cases before
  refine fits_wrap usual ?_
  rw [reach]
  exact reads_leading before reads strong

theorem fits_between {op : Operator} (between : op.position = .between) {a b : List Symbol}
    {p q : Phrase} (ha : Fits (.leftOf op op.associativity) a p)
    (hb : Fits (.rightOf op op.associativity) b q) {place : Place} (usual : place.IsUsual) :
    Fits place
      (wrapSymbols (place.needsParens op.precedence) (a ++ (operatorSymbols op ++ b)))
      (.infixed p op q) := by
  obtain ⟨la, ma, left, strong, -, reach⟩ := ha
  obtain ⟨lb, mb, right, -, tight, -⟩ := hb
  have grouped : (Place.rightOf op op.associativity).wrapEqual = true := by
    cases op <;> first | rfl | cases between
  exact fits_wrap usual (reads_between op between left right strong reach (tight grouped))

theorem fits_after {op : Operator} (after : op.position = .after) {symbols : List Symbol}
    {p : Phrase} (h : Fits (.leftOf op .left) symbols p) {place : Place} (usual : place.IsUsual) :
    Fits place (wrapSymbols (place.needsParens op.precedence) (symbols ++ operatorSymbols op))
      (.postfixed p op) := by
  obtain ⟨level, most, reads, strong, -, reach⟩ := h
  exact fits_wrap usual (reads_after op after reads strong reach)

/-- The joins in front of a condition make a difference for an `AND` only. -/
theorem needsParens_and {op : Operator} (other : op ≠ .and) :
    Place.needsParens ⟨2, false⟩ op.precedence = Place.needsParens ⟨2, true⟩ op.precedence := by
  cases op <;> first
    | rfl
    | exact absurd rfl other

theorem follows_of_fits {symbols : List Symbol} {p : Phrase} (h : Fits ⟨2, true⟩ symbols p)
    (single : ∀ left, Phrase.conjoin left p = .infixed left .and p) : Follows symbols p := by
  obtain ⟨level, most, reads, -, tight, -⟩ := h
  exact follows_of_reads reads (tight rfl) single

/-- The symbols of a condition are read as the condition, in every place and behind joins. -/
theorem Condition.fits_follows {c : Condition} (readable : c.IsReadable) :
    (∀ place : Place, place.IsUsual → Fits place (c.symbols place) c.phrase) ∧
      Follows (c.symbols ⟨2, false⟩) c.phrase := by
  have usual : Place.IsUsual ⟨2, true⟩ := ⟨by decide, by decide⟩
  -- behind joins a conjunction stands without parentheses, so it is read in two steps there
  induction c with
  | parameter number =>
      have fits := fun place (h : Place.IsUsual place) => fits_tightest h (reads_parameter number)
      exact ⟨fits, follows_of_fits (fits _ usual) fun _ => rfl⟩
  | column names =>
      have fits := fun place (h : Place.IsUsual place) => fits_tightest h (reads_column readable.1)
      exact ⟨fits, follows_of_fits (fits _ usual) fun _ => rfl⟩
  | prefixed op operand grouping ih =>
      obtain ⟨before, rfl, readable⟩ := readable
      have operand := (ih readable).1 _ (Place.isUsual_afterPrefix before)
      refine ⟨fun place h => fits_leading before operand h, ?_⟩
      rw [symbols, needsParens_and (by rintro rfl; cases before)]
      exact follows_of_fits (fits_leading before operand usual) fun _ => rfl
  | infixed left op right grouping ihl ihr =>
      obtain ⟨between, rfl, hleft, hright⟩ := readable
      have left := (ihl hleft).1 _ (Place.isUsual_leftOf op)
      have right := (ihr hright).1 _ (Place.isUsual_rightOf op)
      refine ⟨fun place h => fits_between between left right h, ?_⟩
      by_cases conjunction : op = .and
      · -- the joins take the left part in, and the right part comes behind it
        subst conjunction
        obtain ⟨level, most, reads, -, tight, -⟩ := right
        exact follows_and (ihl hleft).2 reads (tight rfl)
      · rw [symbols, needsParens_and conjunction]
        refine follows_of_fits (fits_between between left right usual) fun left => ?_
        rw [phrase]
        cases op <;> first | rfl | exact absurd rfl conjunction
  | postfixed operand op grouping ih =>
      obtain ⟨after, rfl, readable⟩ := readable
      have assoc : op.associativity = .left := by cases op <;> first | rfl | cases after
      have operand := (ih readable).1 _ (assoc ▸ Place.isUsual_leftOf op)
      refine ⟨fun place h => fits_after after operand h, ?_⟩
      rw [symbols, needsParens_and (by rintro rfl; cases after)]
      exact follows_of_fits (fits_after after operand usual) fun _ => rfl
  | «exists» source rowName condition ih =>
      obtain ⟨plain, -, readable⟩ := readable
      obtain ⟨fits, follows⟩ := ih readable
      obtain ⟨level, most, reads, -⟩ := fits source.place source.isUsual_place
      have test := reads_exists reads plain rowName fun joined => by
        cases source with
        | elements array => exact absurd rfl joined
        | rows table joins => exact follows
      have fits := fun place (h : Place.IsUsual place) => fits_tightest h test
      exact ⟨fits, follows_of_fits (fits _ usual) fun _ => rfl⟩

/-- The text of a condition is read as the condition. -/
theorem read_render {c : Condition} (readable : c.IsReadable) : read c.render = some c.phrase := by
  obtain ⟨level, most, reads, -⟩ := (c.fits_follows readable).1 .top ⟨by decide, by decide⟩
  have spells : symbols? c.render.toList = some (c.symbols .top) := c.spells_renderIn readable .top
  have whole : expression ((c.symbols .top).length + 1) 0 (c.symbols .top ++ []) =
      some (c.phrase, []) :=
    reads.expression_eq (Nat.lt_succ_self _) (Nat.zero_le level)
      (stops_nil.mono (Nat.zero_le level)) (by simp [trailing?])
  rw [List.append_nil] at whole
  simp [read, spells, whole]

end DataFilter.Sql
