import DataFilter.Proofs.Sql.Reading

/-!
# What the text of a condition is made of

The text of a compiled tree consists of pieces: words of SQL, operators, parentheses, blanks, the
number one, numbered parameters and dotted names. Names come from the tree, from the schema and from
the numbering of the tests. Each of them is checked on its way into the condition, or made from one
that was checked, so nothing that a tree or a schema is called can end a name and begin something
else.
-/

namespace DataFilter.Sql

/-! ## Conditions with plain names -/

/-- Every name of the source may stand in SQL. -/
def Source.IsNamed : Source → Prop
  | elements array => array ≠ [] ∧ ∀ name ∈ array, isIdentifier name = true
  | rows table joins => isIdentifier table = true ∧ ∀ join ∈ joins, join.IsValid

/-- Every name of the condition may stand in SQL. -/
def Condition.IsNamed : Condition → Prop
  | parameter _ => True
  | column names => names ≠ [] ∧ ∀ name ∈ names, isIdentifier name = true
  | prefixed _ operand _ => operand.IsNamed
  | infixed left _ right _ => left.IsNamed ∧ right.IsNamed
  | postfixed operand _ _ => operand.IsNamed
  | .exists source rowName condition =>
    source.IsNamed ∧ isIdentifier rowName = true ∧ condition.IsNamed

/-- The row under test has a name that may stand in SQL. -/
def Surroundings.IsNamed (around : Surroundings) : Prop :=
  ∀ row ∈ around.element, ∀ name ∈ row.name, isIdentifier name = true

/-- Around a whole condition there is no row under test. -/
theorem Surroundings.IsOutermost.isNamed {around : Surroundings} (h : around.IsOutermost) :
    around.IsNamed := by
  intro row hrow
  cases h <;> cases hrow

/-- What references begin with is checked before: it is the name of the row under test. -/
theorem Surroundings.IsNamed.base {around : Surroundings} (named : around.IsNamed) {root : Root}
    {base : List String} (found : around.base? root = some base) :
    ∀ name ∈ base, isIdentifier name = true := by
  cases root with
  | document =>
      cases found
      exact nofun
  | element =>
      obtain ⟨row, hrow, rfl⟩ := Option.map_eq_some_iff.mp found
      intro name hname
      exact named row hrow name (Option.mem_toList.mp hname)

theorem isIdentifier_aliasOf {stem : String} (h : isIdentifier stem = true) (number : Nat) :
    isIdentifier (aliasOf stem number) = true :=
  (isPlain_aliasOf h number).1

/-- What a test ranges over is written with plain names, and its rows have one. -/
theorem Ranges.isNamed {around : Surroundings} {scope : Node} {name : String} {number : Nat}
    {source : Source} {rowName : String} {row : Row}
    (h : Ranges around (.object scope name) name number source rowName row)
    (named : around.IsNamed) :
    source.IsNamed ∧ isIdentifier rowName = true ∧ row.name = some rowName := by
  cases h with
  | elements owned stored anchored found valid =>
      have last : isIdentifier name = true :=
        valid name (List.mem_append_right _ List.mem_cons_self)
      refine ⟨⟨by simp [Node.path], ?_⟩, ?_, rfl⟩
      · intro part hpart
        rcases List.mem_append.mp hpart with hbase | hpath
        · exact named.base found part hbase
        · exact valid part hpath
      · exact isIdentifier_aliasOf (isIdentifier_singularize last) number
  | rows owned stored table stem valid =>
      exact ⟨⟨table, valid⟩, isIdentifier_aliasOf stem number, rfl⟩

/-- Inside of a test, the row is the one that was just named. -/
theorem Ranges.isNamed_inside {around : Surroundings} {scope : Node} {name : String} {number : Nat}
    {source : Source} {rowName : String} {row : Row}
    (h : Ranges around (.object scope name) name number source rowName row)
    (named : around.IsNamed) : (around.inside row).IsNamed := by
  obtain ⟨-, valid, same⟩ := h.isNamed named
  rintro row ⟨⟩ part hpart
  rw [same] at hpart
  cases hpart
  exact valid

/-- Compiling writes no name that it has not checked. -/
theorem Compiles.isNamed {around : Surroundings} {tree : Node} {out after : Output}
    {condition : Condition} (h : Compiles around tree out condition after)
    (named : around.IsNamed) : condition.IsNamed := by
  induction h with
  | literal => trivial
  | field anchored found valid _ =>
      refine ⟨by simp, ?_⟩
      intro part hpart
      rcases List.mem_append.mp hpart with hbase | hpath
      · exact named.base found part hbase
      · exact valid part hpath
  | collection ranges _ ih =>
      obtain ⟨source, rowName, -⟩ := ranges.isNamed named
      exact ⟨source, rowName, ih (ranges.isNamed_inside named)⟩
  | prefixed _ ih => exact ih named
  | infixed _ _ ihl ihr => exact ⟨ihl named, ihr named⟩
  | postfixed _ ih => exact ih named

/-! ## Pieces -/

/-- A piece of SQL text. -/
inductive Piece where
  | word (word : Keyword)
  | unnest
  | operator (op : Operator)
  | openParen
  | closeParen
  | blank
  | one
  /-- A numbered parameter, `$1`. -/
  | parameter (number : Nat)
  /-- A dotted name. -/
  | name (parts : List String)
  deriving DecidableEq

namespace Piece

def text : Piece → String
  | word k => k.spelling
  | unnest => "unnest"
  | operator op => op.sql
  | openParen => "("
  | closeParen => ")"
  | blank => " "
  | one => "1"
  | parameter number => "$" ++ toString number
  | name parts => dotted parts

/-- A dotted name has at least one part, and every part is a letter or an underscore with letters,
digits and underscores behind it. The other pieces are fixed. -/
def IsSafe : Piece → Prop
  | name parts => parts ≠ [] ∧ ∀ part ∈ parts, isIdentifier part = true
  | _ => True

end Piece

/-- The text of pieces, one behind the other. -/
def joinPieces (pieces : List Piece) : String := String.join (pieces.map Piece.text)

@[simp]
theorem joinPieces_nil : joinPieces [] = "" := String.join_nil

@[simp]
theorem joinPieces_cons (piece : Piece) (pieces : List Piece) :
    joinPieces (piece :: pieces) = piece.text ++ joinPieces pieces :=
  String.join_cons

@[simp]
theorem joinPieces_append (front back : List Piece) :
    joinPieces (front ++ back) = joinPieces front ++ joinPieces back := by
  rw [joinPieces, List.map_append, String.join_append]
  rfl

/-- Parentheses around pieces, if they are needed. -/
def wrapPieces (needed : Bool) (pieces : List Piece) : List Piece :=
  if needed then .openParen :: (pieces ++ [.closeParen]) else pieces

/-- The pieces in front of the operand of a prefix operator. -/
def leadingPieces : Operator → List Piece
  | .not => [.operator .not, .blank]
  | op => [.operator op]

def Join.pieces (rowName : String) (join : Join) : List Piece :=
  [.name [rowName, join.child], .blank, .operator .equal, .blank, .name [join.owner, join.parent]]

/-- `AS`, the name of the rows, and `WHERE`. -/
def namingPieces (rowName : String) : List Piece :=
  [.blank, .word .as, .blank, .name [rowName], .blank, .word .where, .blank]

/-- The pieces between `FROM` and the condition on the elements. -/
def Source.pieces (rowName : String) : Source → List Piece
  | elements array =>
    [.unnest, .openParen, .name array, .closeParen] ++ namingPieces rowName
  | rows table joins =>
    .name [table] :: namingPieces rowName ++
      joins.flatMap fun join => join.pieces rowName ++ [.blank, .operator .and, .blank]

/-- `EXISTS (SELECT 1 FROM` and a blank. -/
def existsPieces : List Piece :=
  [.word .exists, .blank, .openParen, .word .select, .blank, .one, .blank, .word .from, .blank]

/-- The pieces of a condition in its place. -/
def Condition.pieces (place : Place) : Condition → List Piece
  | parameter number => [.parameter number]
  | column names => [.name names]
  | prefixed op operand grouping =>
    wrapPieces (place.needsParens op.precedence)
      (leadingPieces op ++ operand.pieces (.afterPrefix op grouping))
  | infixed left op right grouping =>
    wrapPieces (place.needsParens op.precedence)
      (left.pieces (.leftOf op grouping) ++ [.blank, .operator op, .blank] ++
        right.pieces (.rightOf op grouping))
  | postfixed operand op grouping =>
    wrapPieces (place.needsParens op.precedence)
      (operand.pieces (.leftOf op grouping) ++ [.blank, .operator op])
  | .exists source rowName condition =>
    existsPieces ++ source.pieces rowName ++ condition.pieces source.place ++ [.closeParen]

/-! ## The pieces are the text -/

theorem joinPieces_wrap (needed : Bool) (pieces : List Piece) :
    joinPieces (wrapPieces needed pieces) = wrap needed (joinPieces pieces) := by
  cases needed with
  | false => rfl
  | true => simp [wrapPieces, wrap, Piece.text, String.append_assoc]

theorem joinPieces_leading (op : Operator) : joinPieces (leadingPieces op) = prefixText op := by
  cases op <;> decide

theorem joinPieces_naming (rowName : String) :
    joinPieces (namingPieces rowName) = " AS " ++ rowName ++ " WHERE " := by
  have named : dotted [rowName] = rowName := by simp [dotted]
  simp [namingPieces, Piece.text, Keyword.spelling, named, ← String.append_assoc]

theorem joinPieces_join (rowName : String) (join : Join) :
    joinPieces (join.pieces rowName) = join.render rowName := by
  apply String.toList_inj.mp
  simp [Join.pieces, Join.render, Piece.text, Operator.sql, dotted]

theorem joinPieces_joins (rowName : String) (joins : List Join) :
    joinPieces (joins.flatMap fun join =>
        join.pieces rowName ++ [.blank, .operator .and, .blank]) =
      String.join (joins.map fun join => join.render rowName ++ " AND ") := by
  have and : joinPieces [.blank, .operator .and, .blank] = " AND " := by decide
  induction joins with
  | nil => rfl
  | cons join joins ih =>
      rw [List.flatMap_cons, joinPieces_append, joinPieces_append, joinPieces_join, and, ih,
        List.map_cons, String.join_cons]

theorem joinPieces_source (source : Source) (rowName : String) :
    joinPieces (source.pieces rowName) = source.render rowName := by
  cases source with
  | elements array =>
      rw [Source.pieces, joinPieces_append, joinPieces_naming]
      apply String.toList_inj.mp
      simp [Source.render, Piece.text]
  | rows table joins =>
      rw [Source.pieces, joinPieces_append, joinPieces_cons, joinPieces_naming, joinPieces_joins]
      have first : dotted [table] = table := by simp [dotted]
      simp [Source.render, Piece.text, first, String.append_assoc]

theorem joinPieces_condition (c : Condition) (place : Place) :
    joinPieces (c.pieces place) = c.renderIn place := by
  induction c generalizing place with
  | parameter number => simp [Condition.pieces, Condition.renderIn, Piece.text]
  | column names => simp [Condition.pieces, Condition.renderIn, Piece.text]
  | prefixed op operand grouping ih =>
      rw [Condition.pieces, joinPieces_wrap, joinPieces_append, joinPieces_leading, ih]
      rfl
  | infixed left op right grouping ihl ihr =>
      rw [Condition.pieces, joinPieces_wrap, joinPieces_append, joinPieces_append, ihl, ihr]
      simp [Condition.renderIn, Piece.text, String.append_assoc]
  | postfixed operand op grouping ih =>
      rw [Condition.pieces, joinPieces_wrap, joinPieces_append, ih]
      simp [Condition.renderIn, Piece.text, String.append_assoc]
  | «exists» source rowName condition ih =>
      rw [Condition.pieces, joinPieces_append, joinPieces_append, joinPieces_append,
        joinPieces_source, ih]
      rfl

/-! ## Pieces with plain names -/

/-- Every piece is safe. -/
def AreSafe (pieces : List Piece) : Prop := ∀ piece ∈ pieces, piece.IsSafe

@[simp]
theorem areSafe_nil : AreSafe [] := nofun

@[simp]
theorem areSafe_cons {piece : Piece} {pieces : List Piece} :
    AreSafe (piece :: pieces) ↔ piece.IsSafe ∧ AreSafe pieces :=
  List.forall_mem_cons

@[simp]
theorem areSafe_append {front back : List Piece} :
    AreSafe (front ++ back) ↔ AreSafe front ∧ AreSafe back :=
  List.forall_mem_append

theorem areSafe_wrap {needed : Bool} {pieces : List Piece} (h : AreSafe pieces) :
    AreSafe (wrapPieces needed pieces) := by
  cases needed with
  | false => exact h
  | true => simp [wrapPieces, Piece.IsSafe, h]

theorem areSafe_leading (op : Operator) : AreSafe (leadingPieces op) := by
  cases op <;> simp [leadingPieces, Piece.IsSafe]

theorem areSafe_naming {rowName : String} (row : isIdentifier rowName = true) :
    AreSafe (namingPieces rowName) := by
  simp [namingPieces, Piece.IsSafe, row]

theorem areSafe_join {rowName : String} {join : Join} (row : isIdentifier rowName = true)
    (valid : join.IsValid) : AreSafe (join.pieces rowName) := by
  obtain ⟨child, owner, parent⟩ := valid
  simp [Join.pieces, Piece.IsSafe, row, child, owner, parent]

theorem areSafe_source {source : Source} {rowName : String} (named : source.IsNamed)
    (row : isIdentifier rowName = true) : AreSafe (source.pieces rowName) := by
  cases source with
  | elements array =>
      obtain ⟨nonempty, valid⟩ := named
      refine areSafe_append.mpr ⟨?_, areSafe_naming row⟩
      simpa [Piece.IsSafe, nonempty] using valid
  | rows table joins =>
      obtain ⟨htable, valid⟩ := named
      refine areSafe_append.mpr ⟨?_, ?_⟩
      · simpa [Piece.IsSafe, htable] using areSafe_naming row
      · intro piece hpiece
        obtain ⟨join, hjoin, hmem⟩ := List.mem_flatMap.mp hpiece
        have both : AreSafe (join.pieces rowName ++ [.blank, .operator .and, .blank]) := by
          simpa [Piece.IsSafe] using areSafe_join row (valid join hjoin)
        exact both piece hmem

theorem Condition.IsNamed.areSafe_pieces {c : Condition} (named : c.IsNamed) (place : Place) :
    AreSafe (c.pieces place) := by
  induction c generalizing place with
  | parameter number => simp [Condition.pieces, Piece.IsSafe]
  | column names => exact areSafe_cons.mpr ⟨named, areSafe_nil⟩
  | prefixed op operand grouping ih =>
      apply areSafe_wrap
      exact areSafe_append.mpr ⟨areSafe_leading op, ih named _⟩
  | infixed left op right grouping ihl ihr =>
      apply areSafe_wrap
      have first := ihl named.1 (.leftOf op grouping)
      have second := ihr named.2 (.rightOf op grouping)
      simp [Piece.IsSafe, first, second]
  | postfixed operand op grouping ih =>
      apply areSafe_wrap
      have first := ih named (.leftOf op grouping)
      simp [Piece.IsSafe, first]
  | «exists» source rowName condition ih =>
      obtain ⟨range, row, inner⟩ := named
      have tested := ih inner source.place
      simp [Condition.pieces, existsPieces, Piece.IsSafe, areSafe_source range row, tested]

/-! ## Characters -/

/-- The characters of SQL text besides those of names. -/
def marks : List Char := " ().$=<>+-*/%".toList

/-- Whether a character can stand in SQL text. -/
def isTextChar (c : Char) : Bool := isNameChar c || c ∈ marks

/-- A dotted name is made of its parts and the dots between them. -/
theorem mem_dotted {names : List String} {c : Char} (h : c ∈ (dotted names).toList) :
    c = '.' ∨ ∃ name ∈ names, c ∈ name.toList := by
  induction names with
  | nil => exact absurd h List.not_mem_nil
  | cons name names ih =>
      by_cases last : names = []
      · subst last
        exact .inr ⟨name, List.mem_cons_self, by simpa [dotted] using h⟩
      · rw [toList_dotted_cons name last] at h
        rcases List.mem_append.mp h with first | behind
        · exact .inr ⟨name, List.mem_cons_self, first⟩
        · rcases List.mem_cons.mp behind with dot | others
          · exact .inl dot
          · apply (ih others).imp_right
            rintro ⟨other, hother, hmem⟩
            exact ⟨other, List.mem_cons_of_mem name hother, hmem⟩

/-- Whether a character can stand in what a test ranges over: one of names, a dot, a blank, a
parenthesis or an equals sign. -/
def isRangeChar (c : Char) : Bool := isNameChar c || c ∈ ".() =".toList

theorem all_isRangeChar_of_isIdentifier {name : String} (h : isIdentifier name = true) :
    name.toList.all isRangeChar = true := by
  rw [List.all_eq_true]
  intro c hc
  rw [isRangeChar, isNameChar_of_isName h c hc, Bool.true_or]

theorem all_isRangeChar_dotted {names : List String}
    (h : ∀ name ∈ names, isIdentifier name = true) :
    (dotted names).toList.all isRangeChar = true := by
  rw [List.all_eq_true]
  intro c hc
  rcases mem_dotted hc with rfl | ⟨name, hname, hmem⟩
  · decide
  · exact List.all_eq_true.mp (all_isRangeChar_of_isIdentifier (h name hname)) c hmem

theorem Join.IsValid.all_isRangeChar {join : Join} {rowName : String} (valid : join.IsValid)
    (row : isIdentifier rowName = true) :
    (join.render rowName).toList.all isRangeChar = true := by
  obtain ⟨child, owner, parent⟩ := valid
  have equals : " = ".toList.all isRangeChar = true := by decide
  have dot : ".".toList.all isRangeChar = true := by decide
  simp only [Join.render, String.toList_append, List.all_append, equals, dot, Bool.and_true,
    all_isRangeChar_of_isIdentifier row, all_isRangeChar_of_isIdentifier child,
    all_isRangeChar_of_isIdentifier owner, all_isRangeChar_of_isIdentifier parent]

/-- No operator but the equals sign, and no parameter, stands in what a test ranges over. -/
theorem Source.IsNamed.all_isRangeChar {source : Source} {rowName : String} (named : source.IsNamed)
    (row : isIdentifier rowName = true) :
    (source.render rowName).toList.all isRangeChar = true := by
  have as : " AS ".toList.all isRangeChar = true := by decide
  have where' : " WHERE ".toList.all isRangeChar = true := by decide
  have rowChars := all_isRangeChar_of_isIdentifier row
  cases source with
  | elements array =>
      have opening : "unnest(".toList.all isRangeChar = true := by decide
      have closing : ") AS ".toList.all isRangeChar = true := by decide
      simp only [Source.render, String.toList_append, List.all_append, opening, closing, where',
        rowChars, all_isRangeChar_dotted named.2, Bool.and_true]
  | rows table joins =>
      obtain ⟨htable, valid⟩ := named
      have behind : (String.join (joins.map fun join =>
          join.render rowName ++ " AND ")).toList.all isRangeChar = true := by
        rw [List.all_eq_true]
        intro c hc
        rw [String.toList_join, List.flatMap_map] at hc
        obtain ⟨join, hjoin, hmem⟩ := List.mem_flatMap.mp hc
        rcases List.mem_append.mp (String.toList_append ▸ hmem) with inside | last
        · exact List.all_eq_true.mp ((valid join hjoin).all_isRangeChar row) c inside
        · have and : " AND ".toList.all isRangeChar = true := by decide
          exact List.all_eq_true.mp and c last
      simp only [Source.render, String.toList_append, List.all_append, as, where', rowChars,
        all_isRangeChar_of_isIdentifier htable, behind, Bool.and_true]

theorem isTextChar_of_isRangeChar {c : Char} (h : isRangeChar c = true) : isTextChar c = true := by
  rcases (Bool.or_eq_true _ _).mp h with hname | hmark
  · rw [isTextChar, hname, Bool.true_or]
  · have all : ".() =".toList.all isTextChar = true := by decide
    exact List.all_eq_true.mp all c (of_decide_eq_true hmark)

theorem isTextChar_of_isDigit {c : Char} (h : c.isDigit = true) : isTextChar c = true := by
  simp [isTextChar, isNameChar, Char.isAlphanum, h]

theorem Piece.IsSafe.isTextChar {piece : Piece} (h : piece.IsSafe) :
    ∀ c ∈ piece.text.toList, isTextChar c = true := by
  rw [← List.all_eq_true]
  cases piece with
  | word k => cases k <;> decide
  | operator op => cases op <;> decide
  | parameter number =>
      rw [Piece.text, String.toList_append, toList_toString, List.all_append, Bool.and_eq_true]
      have digits := (isDigits_toDigits number).2
      refine ⟨by decide, ?_⟩
      exact List.all_eq_true.mpr fun c hc => isTextChar_of_isDigit (digits c hc)
  | name parts =>
      have dotted := List.all_eq_true.mp (all_isRangeChar_dotted h.2)
      exact List.all_eq_true.mpr fun c hc => isTextChar_of_isRangeChar (dotted c hc)
  | _ => decide

/-- What ends a quotation, a statement or a name, or begins an escape. -/
def delimiters : List Char := ['\'', '"', '`', ';', '\\']

theorem toNat_lt_of_isNameChar {c : Char} (h : isNameChar c = true) : c.toNat < 128 := by
  rw [isNameChar, Bool.or_eq_true, decide_eq_true_eq, isAlphanum_iff_toNat] at h
  rcases h with alphanum | rfl
  · omega
  · decide

theorem plain_of_isTextChar {c : Char} (h : isTextChar c = true) :
    c.toNat < 128 ∧ c ∉ delimiters := by
  constructor
  · rcases (Bool.or_eq_true _ _).mp h with hname | hmark
    · exact toNat_lt_of_isNameChar hname
    · have all : marks.all (·.toNat < 128) = true := by decide
      exact of_decide_eq_true (List.all_eq_true.mp all c (of_decide_eq_true hmark))
  · intro hc
    have none : delimiters.all (!isTextChar ·) = true := by decide
    have refused := List.all_eq_true.mp none c hc
    rw [h] at refused
    cases refused

/-- The pieces of a condition with plain names have plain characters only. -/
theorem Condition.IsNamed.plain_of_mem_render {condition : Condition} (named : condition.IsNamed) :
    ∀ c ∈ condition.render.toList, c.toNat < 128 ∧ c ∉ delimiters := by
  intro c hc
  rw [render, ← joinPieces_condition, joinPieces, String.toList_join, List.flatMap_map] at hc
  obtain ⟨piece, hpiece, hmem⟩ := List.mem_flatMap.mp hc
  exact plain_of_isTextChar ((named.areSafe_pieces .top piece hpiece).isTextChar c hmem)

/-- No unchecked name reaches the text: whatever a tree is called and however it is put together,
and whatever a schema says. The text is that of a condition all names of which are plain: those of
its columns, of arrays and tables, of rows, and those in joins. Written piece by piece it is made of
words, operators, parentheses, blanks, ones, numbered parameters and dotted names of such parts. -/
theorem text_ofNode {around : Surroundings} (outermost : around.IsOutermost) {tree : Node}
    {compiled : Compiled} (h : ofNode around tree = .ok compiled) :
    ∃ condition out, (compile around tree).run ⟨[], 0⟩ = .ok (condition, out) ∧
      compiled = ⟨condition.render, out.parameters⟩ ∧ condition.IsNamed ∧
      compiled.sql = joinPieces (condition.pieces .top) ∧ AreSafe (condition.pieces .top) ∧
      ∀ c ∈ compiled.sql.toList, c.toNat < 128 ∧ c ∉ delimiters := by
  obtain ⟨condition, out, written, rfl⟩ := ofNode_eq_ok h
  have named : condition.IsNamed := (compiles_of_compile written).isNamed outermost.isNamed
  exact ⟨condition, out, written, rfl, named, (joinPieces_condition condition .top).symm,
    named.areSafe_pieces .top, named.plain_of_mem_render⟩

/-- Orders, and their lines by two keys and under a name of their own. -/
def orderSchema : Schema :=
  .ofTables [⟨"orders", none, [("Lines", .relational
    ⟨"order_lines", [⟨"order_id", "id"⟩, ⟨"region", "region"⟩], some "ol"⟩)]⟩]

/-- A chain that runs through another test, and an operator that has no place in front. -/
def oddTree : Node :=
  .collection
    (.object (.collection (.object .globalScope "a") (.literal (.text "'; DROP TABLE x --"))) "Lines")
    (.prefixed .notEqual (.field .item "Qty") .none)

theorem text_oddTree : ∃ compiled, ofNode (.ofTable orderSchema "orders") oddTree = .ok compiled ∧
    compiled.sql = "EXISTS (SELECT 1 FROM order_lines AS ol_1 WHERE ol_1.order_id = orders.id " ++
      "AND ol_1.region = orders.region AND <>ol_1.Qty)" ∧
    ∃ condition out,
      (compile (.ofTable orderSchema "orders") oddTree).run ⟨[], 0⟩ = .ok (condition, out) ∧
        compiled = ⟨condition.render, out.parameters⟩ ∧ condition.IsNamed ∧
        compiled.sql = joinPieces (condition.pieces .top) ∧ AreSafe (condition.pieces .top) ∧
        ∀ c ∈ compiled.sql.toList, c.toNat < 128 ∧ c ∉ delimiters :=
  ⟨_, rfl, by decide +kernel, @text_ofNode _ (.ofTable orderSchema "orders") oddTree _ rfl⟩

end DataFilter.Sql
