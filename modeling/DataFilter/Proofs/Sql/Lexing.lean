import DataFilter.Proofs.Number.Digits
import DataFilter.Proofs.Sql.Reader
import DataFilter.Proofs.Template.Name
import DataFilter.Sql.Condition
import Mathlib.Data.List.SplitBy

/-!
# The symbols of a condition

The text of a condition is read as the symbols it was written with. A text can be cut wherever a
blank, a parenthesis or a dot stands, and the symbols of the parts are those of the whole; so the
symbols of a condition come from those of its parts. The one other place is behind a sign, and there
no second minus follows, which would begin a comment.
-/

namespace DataFilter.Sql

/-! ## Cutting a text -/

/-- The text is read as these symbols. -/
def Spells (text : List Char) (symbols : List Symbol) : Prop := symbols? text = some symbols

instance (text : List Char) (symbols : List Symbol) : Decidable (Spells text symbols) :=
  inferInstanceAs (Decidable (_ = _))

/-- The characters that are part of no longer symbol. -/
def borders : List Char := [' ', '(', ')', '.']

/-- Whether a text begins with a border. -/
def startsAtBorder (text : List Char) : Bool := text.head?.any fun c => c ∈ borders

/-- Whether a text ends with a border. -/
def endsAtBorder (text : List Char) : Bool := text.getLast?.any fun c => c ∈ borders

theorem belong_border {c : Char} (h : c ∈ borders) (d : Char) :
    belong c d = false ∧ belong d c = false := by
  have alone : isWordChar c = false ∧ ∀ p ∈ pairs, p.1 ≠ c ∧ p.2 ≠ c := by
    simp only [borders, List.mem_cons, List.not_mem_nil, or_false] at h
    rcases h with rfl | rfl | rfl | rfl <;> decide
  obtain ⟨noWord, noPair⟩ := alone
  have apart : (c, d) ∉ pairs ∧ (d, c) ∉ pairs :=
    ⟨fun hp => (noPair _ hp).1 rfl, fun hp => (noPair _ hp).2 rfl⟩
  simp [belong, noWord, apart.1, apart.2]

namespace Spells

variable {front back : List Char} {s t : List Symbol}

theorem append (h : Spells front s) (h' : Spells back t)
    (apart : ∀ c ∈ front.getLast?, ∀ d ∈ back.head?, belong c d = false) :
    Spells (front ++ back) (s ++ t) := by
  unfold Spells symbols? at h h' ⊢
  rw [List.splitBy_append apart, List.filter_append, List.mapM_append, h, h']
  rfl

/-- Behind a border a text can be cut. -/
theorem append_of_last (h : Spells front s) (h' : Spells back t)
    (border : endsAtBorder front = true) : Spells (front ++ back) (s ++ t) := by
  obtain ⟨b, hb, hborder⟩ := (Option.any_eq_true _ _).mp border
  refine h.append h' fun c hc d _ => ?_
  rw [Option.mem_unique hc hb]
  exact (belong_border (of_decide_eq_true hborder) d).1

/-- In front of a border a text can be cut. -/
theorem append_of_head (h : Spells front s) (h' : Spells back t)
    (border : startsAtBorder back = true) : Spells (front ++ back) (s ++ t) := by
  obtain ⟨b, hb, hborder⟩ := (Option.any_eq_true _ _).mp border
  refine h.append h' fun c _ d hd => ?_
  rw [Option.mem_unique hd hb]
  exact (belong_border (of_decide_eq_true hborder) c).2

/-- Between two borders stands any text. -/
theorem append_between {middle : List Char} {m : List Symbol} (h : Spells front s)
    (hmiddle : Spells middle m) (h' : Spells back t) (left : startsAtBorder middle = true)
    (right : endsAtBorder middle = true) : Spells (front ++ (middle ++ back)) (s ++ (m ++ t)) := by
  refine h.append_of_head (hmiddle.append_of_last h' right) ?_
  cases middle with
  | nil => cases left
  | cons c middle => exact left

end Spells

/-! ## Words, numbers and parameters -/

/-- A lexeme whose characters belong together is one symbol. -/
theorem spells_lexeme {text : List Char} {symbol : Symbol}
    (chain : text.IsChain fun a b => belong a b) (found : symbol? text = some symbol) :
    Spells text [symbol] := by
  have nonempty : text ≠ [] := by
    rintro rfl
    cases found
  have solid : text ≠ [' '] := by
    rintro rfl
    cases found
  unfold Spells symbols?
  rw [List.splitBy_of_isChain nonempty chain, List.filter_cons_of_pos (by simpa using solid)]
  simp [found]

theorem isChain_of_isWordChar {text : List Char} (h : ∀ c ∈ text, isWordChar c = true) :
    text.IsChain fun a b => belong a b := by
  refine List.Pairwise.isChain (List.pairwise_of_forall_mem_list fun a ha b hb => ?_)
  simp [belong, h a ha, h b hb]

/-- A name that is no keyword. -/
def IsPlain (name : String) : Prop := isName name.toList = true ∧ keyword? name.toList = none

theorem symbol?_of_isName {text : List Char} (h : isName text = true) :
    symbol? text = some (((keyword? text).map .keyword).getD (.name (String.ofList text))) := by
  unfold symbol?
  split
  · cases h
  · cases h
  · cases h
  · cases h
  · rw [if_pos h]

theorem spells_name {name : String} (h : IsPlain name) : Spells name.toList [.name name] := by
  obtain ⟨hname, free⟩ := h
  refine spells_lexeme (isChain_of_isWordChar ?_) ?_
  · intro c hc
    simp [isWordChar, isNameChar_of_isName hname c hc]
  · rw [symbol?_of_isName hname, free, Option.map_none, Option.getD_none, String.ofList_toList]

theorem spells_parameter (n : Nat) : Spells ('$' :: Nat.toDigits 10 n) [.parameter n] := by
  obtain ⟨nonempty, digits⟩ := isDigits_toDigits n
  refine spells_lexeme (isChain_of_isWordChar ?_) ?_
  · intro c hc
    rcases List.mem_cons.mp hc with rfl | hc
    · rfl
    · simp [isWordChar, isNameChar, Char.isAlphanum, digits c hc]
  · have number : isNumber (Nat.toDigits 10 n) = true := by
      simpa [isNumber, nonempty] using digits
    show (if isNumber (Nat.toDigits 10 n) then _ else _) = _
    rw [if_pos number, digitsValue_toDigits]

/-! ## The symbols that a condition is written with -/

/-- The symbols of an operator. -/
def operatorSymbols : Operator → List Symbol
  | .and => [.keyword .and]
  | .or => [.keyword .or]
  | .not => [.keyword .not]
  | .isNull => [.keyword .is, .keyword .null]
  | .isNotNull => [.keyword .is, .keyword .not, .keyword .null]
  | .positive => [.sign .add]
  | .negative => [.sign .subtract]
  | op => [.sign op]

/-- The symbols of a dotted name. -/
def dottedSymbols (names : List String) : List Symbol :=
  (names.map Symbol.name).intersperse .dot

/-- Parentheses around symbols, if they are needed. -/
def wrapSymbols (needed : Bool) (symbols : List Symbol) : List Symbol :=
  if needed then .openParen :: (symbols ++ [.closeParen]) else symbols

def Join.symbols (rowName : String) (join : Join) : List Symbol :=
  dottedSymbols [rowName, join.child] ++ .sign .equal :: dottedSymbols [join.owner, join.parent]

/-- The joins, an `AND` behind each of them. -/
def joinSymbols (rowName : String) (joins : List Join) : List Symbol :=
  joins.flatMap fun join => join.symbols rowName ++ [.keyword .and]

/-- The symbols between `FROM` and the condition on the elements. -/
def Source.symbols (rowName : String) : Source → List Symbol
  | elements array =>
    .name "unnest" :: .openParen :: (dottedSymbols array ++
      [.closeParen, .keyword .as, .name rowName, .keyword .where])
  | rows table joins =>
    .name table :: .keyword .as :: .name rowName :: .keyword .where :: joinSymbols rowName joins

/-- The symbols of a condition in its place. -/
def Condition.symbols (place : Place) : Condition → List Symbol
  | parameter number => [.parameter number]
  | column names => dottedSymbols names
  | prefixed op operand grouping =>
    wrapSymbols (place.needsParens op.precedence)
      (operatorSymbols op ++ operand.symbols (.afterPrefix op grouping))
  | infixed left op right grouping =>
    wrapSymbols (place.needsParens op.precedence)
      (left.symbols (.leftOf op grouping) ++
        (operatorSymbols op ++ right.symbols (.rightOf op grouping)))
  | postfixed operand op grouping =>
    wrapSymbols (place.needsParens op.precedence)
      (operand.symbols (.leftOf op grouping) ++ operatorSymbols op)
  | .exists source rowName condition =>
    .keyword .exists :: .openParen :: .keyword .select :: .number 1 :: .keyword .from ::
      (source.symbols rowName ++ (condition.symbols source.place ++ [.closeParen]))

/-! ## Conditions that can be read -/

/-- The names of a test are plain. -/
def Source.IsPlain : Source → Prop
  | elements array => array ≠ [] ∧ ∀ name ∈ array, Sql.IsPlain name
  | rows table joins =>
    Sql.IsPlain table ∧
      ∀ join ∈ joins, Sql.IsPlain join.child ∧ Sql.IsPlain join.owner ∧ Sql.IsPlain join.parent

/-- All names are plain, and every operator stands in its position with its own grouping. -/
def Condition.IsReadable : Condition → Prop
  | parameter _ => True
  | column names => names ≠ [] ∧ ∀ name ∈ names, IsPlain name
  | prefixed op operand grouping =>
    op.position = .before ∧ grouping = op.associativity ∧ operand.IsReadable
  | infixed left op right grouping =>
    op.position = .between ∧ grouping = op.associativity ∧ left.IsReadable ∧ right.IsReadable
  | postfixed operand op grouping => op.position = .after ∧ grouping = .left ∧ operand.IsReadable
  | .exists source rowName condition => source.IsPlain ∧ IsPlain rowName ∧ condition.IsReadable

/-! ## The text of a condition -/

theorem toList_dotted_cons (name : String) {names : List String} (h : names ≠ []) :
    (dotted (name :: names)).toList = name.toList ++ '.' :: (dotted names).toList := by
  obtain ⟨next, names, rfl⟩ := List.exists_cons_of_ne_nil h
  simp [dotted, String.intercalate_cons_cons]

theorem head?_dotted (name : String) (names : List String) (h : name.toList ≠ []) :
    (dotted (name :: names)).toList.head? = name.toList.head? := by
  cases names with
  | nil => simp [dotted]
  | cons next names =>
      rw [toList_dotted_cons name (List.cons_ne_nil next names), List.head?_append_of_ne_nil _ h]

theorem spells_dotted {names : List String} (nonempty : names ≠ [])
    (plain : ∀ name ∈ names, IsPlain name) :
    Spells (dotted names).toList (dottedSymbols names) := by
  induction names with
  | nil => exact absurd rfl nonempty
  | cons name names ih =>
      obtain ⟨first, others⟩ := List.forall_mem_cons.mp plain
      cases names with
      | nil => simpa [dotted, dottedSymbols] using spells_name first
      | cons next names =>
          rw [toList_dotted_cons name (List.cons_ne_nil next names)]
          have dot : Spells ['.'] [.dot] := rfl
          exact (spells_name first).append_between dot (ih (List.cons_ne_nil next names) others)
            rfl rfl

theorem spells_operator (op : Operator) :
    Spells (' ' :: op.sql.toList) (operatorSymbols op) := by
  cases op <;> decide

theorem Spells.blank {text : List Char} {symbols : List Symbol} (h : Spells text symbols) :
    Spells (' ' :: text) symbols :=
  (show Spells [' '] [] from rfl).append_of_last h rfl

theorem spells_wrap (needed : Bool) {text : String} {symbols : List Symbol}
    (h : Spells text.toList symbols) :
    Spells (wrap needed text).toList (wrapSymbols needed symbols) := by
  cases needed with
  | false => exact h
  | true =>
      have opened : Spells ['('] [.openParen] := rfl
      have closed : Spells [')'] [.closeParen] := rfl
      show Spells ("(" ++ text ++ ")").toList _
      rw [String.append_assoc, String.toList_append, String.toList_append]
      exact opened.append_of_last (h.append_of_head closed rfl) rfl

/-- Behind a sign, only a second minus makes a longer symbol of it. -/
theorem belong_sign {c d : Char} (sign : c = '+' ∨ c = '-') (h : d ≠ '-') : belong c d = false := by
  have noWord : isWordChar c = false := by rcases sign with rfl | rfl <;> decide
  have noPair : (c, d) ∉ pairs := by
    rcases sign with rfl | rfl <;> simp [pairs, h]
  simp [belong, noWord, noPair]

/-- An operator in front of its operand. -/
theorem spells_leading {op : Operator} (before : op.position = .before) {text : List Char}
    {symbols : List Symbol} (h : Spells text symbols)
    (unsigned : op ≠ .not → ∀ d ∈ text.head?, d ≠ '-') :
    Spells ((prefixText op).toList ++ text) (operatorSymbols op ++ symbols) := by
  have behind {c : Char} {symbol : Symbol} (hc : Spells [c] [symbol]) (sign : c = '+' ∨ c = '-')
      (unsigned : ∀ d ∈ text.head?, d ≠ '-') : Spells ([c] ++ text) ([symbol] ++ symbols) := by
    refine hc.append h fun c' hc' d hd => ?_
    cases hc'
    exact belong_sign sign (unsigned d hd)
  cases op <;> cases before
  case not =>
    have word : Spells "NOT ".toList [.keyword .not] := rfl
    exact word.append_of_last h rfl
  case positive =>
    have sign : Spells ['+'] [.sign .add] := rfl
    exact behind sign (.inl rfl) (unsigned (by decide))
  case negative =>
    have sign : Spells ['-'] [.sign .subtract] := rfl
    exact behind sign (.inr rfl) (unsigned (by decide))

theorem spells_join {rowName : String} {join : Join} (row : IsPlain rowName)
    (plain : IsPlain join.child ∧ IsPlain join.owner ∧ IsPlain join.parent) :
    Spells (join.render rowName).toList (join.symbols rowName) := by
  obtain ⟨child, owner, parent⟩ := plain
  have left : Spells _ (dottedSymbols [rowName, join.child]) :=
    spells_dotted (by simp) (by simp [row, child])
  have right : Spells _ (dottedSymbols [join.owner, join.parent]) :=
    spells_dotted (by simp) (by simp [owner, parent])
  have equal : Spells " = ".toList [.sign .equal] := rfl
  have whole := left.append_between equal right rfl rfl
  simpa [Join.render, Join.symbols, toList_dotted_cons, dotted] using whole

/-- The joins in front of a text, an `AND` behind each of them. -/
theorem spells_joins {rowName : String} {joins : List Join} {text : List Char}
    {symbols : List Symbol} (row : IsPlain rowName)
    (plain : ∀ join ∈ joins, IsPlain join.child ∧ IsPlain join.owner ∧ IsPlain join.parent)
    (h : Spells text symbols) :
    Spells ((String.join (joins.map fun join => join.render rowName ++ " AND ")).toList ++ text)
      (joinSymbols rowName joins ++ symbols) := by
  induction joins with
  | nil => simpa [joinSymbols] using h
  | cons join joins ih =>
      obtain ⟨first, others⟩ := List.forall_mem_cons.mp plain
      have and : Spells " AND ".toList [.keyword .and] := rfl
      have whole := (spells_join row first).append_between and (ih others) rfl rfl
      simpa [joinSymbols, String.join_cons] using whole

/-- What stands between `EXISTS` and the condition on the elements. -/
theorem spells_source {source : Source} {rowName : String} (plain : source.IsPlain)
    (row : IsPlain rowName) {text : List Char} {symbols : List Symbol} (h : Spells text symbols) :
    Spells ((source.render rowName).toList ++ text) (source.symbols rowName ++ symbols) := by
  have whereWord : Spells " WHERE ".toList [.keyword .where] := rfl
  have named {back : List Char} {t : List Symbol} (h : Spells back t) :=
    (spells_name row).append_between whereWord h rfl rfl
  cases source with
  | elements array =>
      have opened : Spells "unnest(".toList [.name "unnest", .openParen] := rfl
      have closed : Spells ") AS ".toList [.closeParen, .keyword .as] := rfl
      have tail := named h
      have inside := (spells_dotted plain.1 plain.2).append_between closed tail rfl rfl
      have whole := opened.append_of_last inside rfl
      simpa [Source.render, Source.symbols, String.toList_append] using whole
  | rows table joins =>
      have asWord : Spells " AS ".toList [.keyword .as] := rfl
      have tail := named (spells_joins row plain.2 h)
      have whole := (spells_name plain.1).append_between asWord tail rfl rfl
      simpa [Source.render, Source.symbols, String.toList_append] using whole

theorem toList_existsText (source condition : String) :
    (existsText source condition).toList =
      "EXISTS (SELECT 1 FROM ".toList ++ (source.toList ++ (condition.toList ++ [')'])) := by
  show ("EXISTS (SELECT 1 FROM " ++ source ++ condition ++ ")").toList = _
  rw [String.toList_append, String.toList_append, String.toList_append, List.append_assoc,
    List.append_assoc]
  rfl

theorem precedence_le (op : Operator) : op.precedence ≤ 9 := by
  cases op <;> decide

/-- Behind a sign every operator needs parentheses. -/
theorem needsParens_afterSign {op : Operator} (before : op.position = .before) (sign : op ≠ .not)
    (grouping : Associativity) (other : Operator) :
    (Place.afterPrefix op grouping).needsParens other.precedence = true := by
  have strongest : op.precedence = 9 := by
    cases op <;> first
      | rfl
      | exact absurd rfl sign
      | cases before
  rcases Nat.lt_or_eq_of_le (precedence_le other) with weaker | equal
  · simp [Place.needsParens, Place.afterPrefix, strongest, weaker]
  · simp [Place.needsParens, Place.afterPrefix, strongest, equal, sign]

/-- A condition where every operator stands in parentheses begins with no minus. -/
theorem Condition.head?_renderIn {c : Condition} (readable : c.IsReadable) {place : Place}
    (wrapped : ∀ op : Operator, place.needsParens op.precedence = true) :
    ∀ d ∈ (c.renderIn place).toList.head?, d ≠ '-' := by
  cases c with
  | parameter number => simp [renderIn]
  | column names =>
      obtain ⟨nonempty, plain⟩ := readable
      obtain ⟨name, names, rfl⟩ := List.exists_cons_of_ne_nil nonempty
      intro d hd
      have hname := (plain name List.mem_cons_self).1
      have nonempty : name.toList ≠ [] := by
        intro empty
        rw [empty] at hname
        cases hname
      rw [renderIn, head?_dotted name names nonempty] at hd
      have := isNameChar_of_isName hname d (List.mem_of_mem_head? hd)
      rintro rfl
      cases this
  | prefixed op operand grouping => simp [renderIn, wrapped, wrap]
  | infixed left op right grouping => simp [renderIn, wrapped, wrap]
  | postfixed operand op grouping => simp [renderIn, wrapped, wrap]
  | «exists» source rowName condition =>
      have first : "EXISTS (SELECT 1 FROM ".toList.head? = some 'E' := rfl
      rw [renderIn, toList_existsText, List.head?_append_of_ne_nil _ (by decide), first]
      rintro d ⟨⟩
      decide

/-- The text of a condition is read as the symbols of the condition. -/
theorem Condition.spells_renderIn {c : Condition} (readable : c.IsReadable) (place : Place) :
    Spells (c.renderIn place).toList (c.symbols place) := by
  induction c generalizing place with
  | parameter number =>
      rw [renderIn, String.toList_append, toList_toString]
      exact spells_parameter number
  | column names => exact spells_dotted readable.1 readable.2
  | prefixed op operand grouping ih =>
      obtain ⟨before, grouped, readable⟩ := readable
      refine spells_wrap _ ?_
      rw [String.toList_append]
      refine spells_leading before (ih readable _) fun sign => ?_
      exact head?_renderIn readable (needsParens_afterSign before sign grouping)
  | infixed left op right grouping ihl ihr =>
      obtain ⟨-, -, hleft, hright⟩ := readable
      refine spells_wrap _ ?_
      have operator := (spells_operator op).append_of_head (ihr hright (.rightOf op grouping)).blank
        rfl
      have whole := (ihl hleft (.leftOf op grouping)).append_of_head operator rfl
      simpa using whole
  | postfixed operand op grouping ih =>
      obtain ⟨-, -, readable⟩ := readable
      refine spells_wrap _ ?_
      have whole := (ih readable (.leftOf op grouping)).append_of_head (spells_operator op)
        rfl
      simpa using whole
  | «exists» source rowName condition ih =>
      obtain ⟨plain, row, readable⟩ := readable
      have opened : Spells "EXISTS (SELECT 1 FROM ".toList
        [.keyword .exists, .openParen, .keyword .select, .number 1, .keyword .from] := rfl
      have closed : Spells [')'] [.closeParen] := rfl
      have inside := (ih readable source.place).append_of_head closed rfl
      have whole := opened.append_of_last (spells_source plain row inside) rfl
      rw [renderIn, toList_existsText]
      exact whole

end DataFilter.Sql
