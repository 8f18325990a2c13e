import DataFilter.Proofs.Node.Scoped
import DataFilter.Proofs.Sql.Text
import DataFilter.Proofs.Template.Spelling
import Mathlib.Data.List.Nodup

/-!
# The names of subqueries

Every collection test is written as a subquery with a name for its rows. Tests are counted as they
are written, a test before those in its predicate, so that the k-th subquery of a text has a name
that ends in an underscore and `k`. What it begins with does not matter: the stem may end in an
underscore and a number itself, but behind the last underscore stands the number of the test, and no
two tests have the same. The names are read off the text, by the words around them.
-/

namespace DataFilter

/-! ## Numbered names -/

namespace Sql

/-- What a name is made of can be told from it: the number is what stands behind the last
underscore. -/
theorem aliasOf_injective {s t : String} {m n : Nat} (h : aliasOf s m = aliasOf t n) :
    s = t ∧ m = n := by
  -- read from the end, the digits stop at the underscore
  have reversed : (Nat.toDigits 10 m).reverse ++ '_' :: s.toList.reverse =
      (Nat.toDigits 10 n).reverse ++ '_' :: t.toList.reverse := by
    have chars := congrArg (fun name => name.toList.reverse) h
    simpa [toList_aliasOf] using chars
  have digits (k : Nat) : ∀ c ∈ (Nat.toDigits 10 k).reverse, c.isDigit = true := fun c hc =>
    (isDigits_toDigits k).2 c (List.mem_reverse.mp hc)
  have stop (rest : List Char) : ∀ c ∈ ('_' :: rest).head?, c.isDigit = false := by
    rintro c ⟨⟩
    rfl
  have number := congrArg (List.takeWhile Char.isDigit) reversed
  have stem := congrArg (List.dropWhile Char.isDigit) reversed
  rw [takeWhile_append_of_head (digits m) (stop _), takeWhile_append_of_head (digits n) (stop _)]
    at number
  rw [dropWhile_append_of_head (digits m) (stop _), dropWhile_append_of_head (digits n) (stop _)]
    at stem
  constructor
  · exact String.toList_inj.mp (List.reverse_injective (List.tail_eq_of_cons_eq stem))
  · rw [← digitsValue_toDigits m, ← digitsValue_toDigits n, List.reverse_injective number]

/-- The names are numbered one after the other, whatever their stems are. -/
def AreNumbered (first : Nat) (names : List String) : Prop :=
  ∀ k name, names[k]? = some name → ∃ stem, name = aliasOf stem (first + k)

namespace AreNumbered

variable {first : Nat} {names more : List String}

theorem nil : AreNumbered first [] := nofun

theorem cons {stem : String} (h : AreNumbered (first + 1) names) :
    AreNumbered first (aliasOf stem first :: names) := by
  intro k name hname
  cases k with
  | zero => exact ⟨stem, (Option.some.inj hname).symm⟩
  | succ k =>
      obtain ⟨other, rfl⟩ := h k name hname
      exact ⟨other, by rw [Nat.add_assoc, Nat.add_comm 1 k]⟩

theorem append (h : AreNumbered first names) (h' : AreNumbered (first + names.length) more) :
    AreNumbered first (names ++ more) := by
  intro k name hname
  by_cases inFront : k < names.length
  · rw [List.getElem?_append_left inFront] at hname
    exact h k name hname
  · rw [List.getElem?_append_right (Nat.le_of_not_lt inFront)] at hname
    obtain ⟨stem, rfl⟩ := h' _ name hname
    exact ⟨stem, by rw [show first + names.length + (k - names.length) = first + k by omega]⟩

/-- Numbered names are different from each other. -/
theorem nodup (h : AreNumbered first names) : names.Nodup := by
  rw [List.nodup_iff_getElem?_ne_getElem?]
  intro i j before inside same
  obtain ⟨name, hname⟩ : ∃ name, names[j]? = some name :=
    ⟨_, List.getElem?_eq_getElem inside⟩
  obtain ⟨s, hs⟩ := h i name (same.trans hname)
  obtain ⟨t, ht⟩ := h j name hname
  have number := (aliasOf_injective (hs.symm.trans ht)).2
  omega

end AreNumbered

end Sql

/-! ## Tests of trees and of conditions -/

namespace Node

/-- The number of collection tests in a tree. -/
def tests : Node → Nat
  | value _ | globalScope | item => 0
  | object parent _ => parent.tests
  | field scope _ => scope.tests
  | collection parent predicate => parent.tests + (predicate.tests + 1)
  | prefixed _ operand _ => operand.tests
  | infixed left _ right _ => left.tests + right.tests
  | postfixed operand _ _ => operand.tests

theorem IsChain.tests_eq_zero {scope : Node} (h : scope.IsChain) : scope.tests = 0 := by
  induction scope with
  | globalScope => rfl
  | item => rfl
  | object parent name ih => exact ih h
  | _ => cases h

end Node

namespace Sql

/-- The names of the rows that are tested in a condition, in the order in which they are written. -/
def Condition.rowNames : Condition → List String
  | parameter _ | column _ => []
  | prefixed _ operand _ => operand.rowNames
  | infixed left _ right _ => left.rowNames ++ right.rowNames
  | postfixed operand _ _ => operand.rowNames
  | .exists _ rowName condition => rowName :: condition.rowNames

theorem Ranges.exists_stem {around : Surroundings} {parent : Node} {name : String} {number : Nat}
    {source : Source} {rowName : String} {row : Row}
    (h : Ranges around parent name number source rowName row) :
    ∃ stem, rowName = aliasOf stem number := by
  cases h with
  | elements => exact ⟨_, rfl⟩
  | rows => exact ⟨_, rfl⟩

section Compiles

variable {around : Surroundings} {tree : Node} {out after : Output} {condition : Condition}

/-- Every name is counted. -/
theorem Compiles.aliases_eq (h : Compiles around tree out condition after) :
    after.aliases = out.aliases + condition.rowNames.length := by
  induction h with
  | literal => rfl
  | field => rfl
  | collection _ _ ih =>
      rw [ih, Condition.rowNames, List.length_cons]
      show _ + 1 + _ = _
      omega
  | prefixed _ ih => exact ih
  | infixed _ _ ihl ihr => rw [ihr, ihl, Condition.rowNames, List.length_append, Nat.add_assoc]
  | postfixed _ ih => exact ih

/-- The numbers run on from the tests that were named before. -/
theorem Compiles.areNumbered (h : Compiles around tree out condition after) :
    AreNumbered (out.aliases + 1) condition.rowNames := by
  induction h with
  | literal => exact .nil
  | field => exact .nil
  | collection ranges _ ih =>
      obtain ⟨stem, rfl⟩ := ranges.exists_stem
      exact .cons ih
  | prefixed _ ih => exact ih
  | infixed first _ ihl ihr =>
      rw [first.aliases_eq, Nat.add_right_comm] at ihr
      exact ihl.append ihr
  | postfixed _ ih => exact ih

/-- Where chains hold no tests, each test of the tree is written. -/
theorem Compiles.length_rowNames (h : Compiles around tree out condition after)
    (wellScoped : tree.IsWellScoped) : condition.rowNames.length = tree.tests := by
  induction h with
  | literal => rfl
  | @field _ scope =>
      have chain : scope.IsChain := wellScoped
      exact chain.tests_eq_zero.symm
  | collection _ _ ih =>
      obtain ⟨chain, inner⟩ := wellScoped
      rw [Condition.rowNames, List.length_cons, ih inner, Node.tests, chain.tests_eq_zero,
        Nat.zero_add]
  | prefixed _ ih => exact ih wellScoped
  | infixed _ _ ihl ihr =>
      obtain ⟨left, right⟩ := wellScoped
      rw [Condition.rowNames, List.length_append, ihl left, ihr right, Node.tests]
  | postfixed _ ih => exact ih wellScoped

end Compiles

/-! ## Subqueries in a text -/

/-- What a subquery begins with. -/
def subqueryHead : List Char := "EXISTS (SELECT 1 FROM ".toList

/-- The name of a subquery, by the text behind its head: what is ranged over is one word, `AS`
follows it, and the next word is the name. -/
def nameBehind (text : List Char) : List Char :=
  ((text.dropWhile (· ≠ ' ')).drop " AS ".length).takeWhile (· ≠ ' ')

/-- The names of the subqueries that begin at one of the places of a text. -/
def scanSubqueries : List Char → List (List Char)
  | [] => []
  | c :: rest =>
    if subqueryHead.isPrefixOf (c :: rest) then
      nameBehind ((c :: rest).drop subqueryHead.length) :: scanSubqueries rest
    else scanSubqueries rest

/-- The names of the subqueries of a text, from left to right. -/
def subqueryNames (text : String) : List String :=
  (scanSubqueries text.toList).map String.ofList

example : subqueryNames "NOT EXISTS (SELECT 1 FROM unnest(EXISTS) AS e_1 WHERE e_1.a)" = ["e_1"] :=
  by decide +kernel

theorem scanSubqueries_cons {c : Char} {rest : List Char} (h : ¬subqueryHead <+: c :: rest) :
    scanSubqueries (c :: rest) = scanSubqueries rest := by
  rw [scanSubqueries, if_neg (by rwa [List.isPrefixOf_iff_prefix])]

/-- A text without the first letter of a head begins no subquery. -/
theorem scanSubqueries_append {text : List Char} (h : 'E' ∉ text) (rest : List Char) :
    scanSubqueries (text ++ rest) = scanSubqueries rest := by
  induction text with
  | nil => rfl
  | cons c text ih =>
      rw [List.mem_cons, not_or] at h
      have other : ¬subqueryHead <+: c :: (text ++ rest) := fun begins =>
        h.1 (List.cons_prefix_cons.mp begins).1
      rw [List.cons_append, scanSubqueries_cons other, ih h.2]

theorem scanSubqueries_head (rest : List Char) :
    scanSubqueries (subqueryHead ++ rest) = nameBehind rest :: scanSubqueries rest := rfl

theorem scanSubqueries_where (rest : List Char) :
    scanSubqueries (" WHERE ".toList ++ rest) = scanSubqueries rest := rfl

/-- Whether the text goes on as behind an operand: it ends, or a parenthesis is closed, or a blank
follows and behind it no parenthesis is opened. -/
def goesOn : List Char → Bool
  | [] => true
  | ')' :: _ => true
  | ' ' :: c :: _ => c ≠ '('
  | _ => false

/-- The characters that words consist of. -/
def isInWord (c : Char) : Bool := c ≠ ' ' && c ≠ ')'

/-- A word is no head of a subquery, even if it is `EXISTS`: a subquery would open a parenthesis. -/
theorem scanSubqueries_word {word : List Char} (h : ∀ c ∈ word, isInWord c = true)
    {rest : List Char} (follows : goesOn rest = true) :
    scanSubqueries (word ++ rest) = scanSubqueries rest := by
  have border : ∀ c ∈ rest.head?, isInWord c = false := by
    intro c hc
    obtain ⟨others, rfl⟩ := List.head?_eq_some_iff.mp hc
    unfold goesOn at follows
    split at follows <;> simp_all [isInWord]
  induction word with
  | nil => rfl
  | cons c word ih =>
      have other : ¬subqueryHead <+: c :: (word ++ rest) := by
        -- the word would be `EXISTS`, and a parenthesis would be opened behind it
        rintro ⟨behind, same⟩
        have opened : rest = " (SELECT 1 FROM ".toList ++ behind := by
          have cut := congrArg (List.dropWhile isInWord) same
          rw [← List.cons_append, dropWhile_append_of_head h border] at cut
          exact cut.symm
        rw [opened] at follows
        cases follows
      rw [List.cons_append, scanSubqueries_cons other]
      exact ih fun d hd => h d (List.mem_cons_of_mem c hd)

/-! ## The text of what is ranged over -/

namespace Source

/-- The text between `FROM` and `AS`. -/
def rangeText : Source → String
  | elements array => "unnest(" ++ dotted array ++ ")"
  | rows table _ => table

/-- The text between `WHERE` and the condition on the elements. -/
def joinText (rowName : String) : Source → String
  | elements _ => ""
  | rows _ joins => String.join (joins.map fun join => join.render rowName ++ " AND ")

theorem render_eq (source : Source) (rowName : String) :
    source.render rowName =
      source.rangeText ++ (" AS " ++ (rowName ++ (" WHERE " ++ source.joinText rowName))) := by
  cases source with
  | elements array =>
      apply String.toList_inj.mp
      simp [render, rangeText, joinText]
  | rows table joins => simp [render, rangeText, joinText, String.append_assoc]

end Source

theorem isInWord_of_isIdentifier {name : String} (h : isIdentifier name = true) :
    ∀ c ∈ name.toList, isInWord c = true := by
  intro c hc
  have char := isNameChar_of_isName h c hc
  rw [isInWord, Bool.and_eq_true, decide_eq_true_eq, decide_eq_true_eq]
  constructor
  · rintro rfl
    cases char
  · rintro rfl
    cases char

theorem blank_notMem_of_isIdentifier {name : String} (h : isIdentifier name = true) :
    ' ' ∉ name.toList := by
  intro blank
  cases isInWord_of_isIdentifier h ' ' blank

theorem ne_blank_of_notMem {text : List Char} (h : ' ' ∉ text) :
    ∀ c ∈ text, decide (c ≠ ' ') = true := fun _ hc =>
  decide_eq_true fun blank => h (blank ▸ hc)

theorem isInWord_dotted {names : List String} (h : ∀ name ∈ names, isIdentifier name = true) :
    ∀ c ∈ (dotted names).toList, isInWord c = true := by
  intro c hc
  rcases mem_dotted hc with rfl | ⟨name, hname, hmem⟩
  · rfl
  · exact isInWord_of_isIdentifier (h name hname) c hmem

section Source

variable {source : Source} {rowName : String}

/-- What is ranged over is a single word, with or without parentheses. -/
theorem Source.IsNamed.blank_notMem_rangeText (named : source.IsNamed) :
    ' ' ∉ source.rangeText.toList := by
  intro blank
  cases source with
  | elements array =>
      rw [rangeText, String.toList_append, String.toList_append, List.append_assoc] at blank
      rcases List.mem_append.mp blank with front | behind
      · exact absurd front (by decide)
      · rcases List.mem_append.mp behind with inside | last
        · cases isInWord_dotted named.2 ' ' inside
        · exact absurd last (by decide)
  | rows table joins => exact blank_notMem_of_isIdentifier named.1 blank

/-- Behind what is ranged over stands the name. -/
theorem Source.IsNamed.nameBehind_render (named : source.IsNamed)
    (row : isIdentifier rowName = true) (rest : List Char) :
    nameBehind ((source.render rowName).toList ++ rest) = rowName.toList := by
  have range := ne_blank_of_notMem named.blank_notMem_rangeText
  have name := ne_blank_of_notMem (blank_notMem_of_isIdentifier row)
  have asWord (text : List Char) :
      ∀ c ∈ (" AS ".toList ++ text).head?, decide (c ≠ ' ') = false := by
    rintro c ⟨⟩
    rfl
  have whereWord (text : List Char) :
      ∀ c ∈ (" WHERE ".toList ++ text).head?, decide (c ≠ ' ') = false := by
    rintro c ⟨⟩
    rfl
  have text : (source.render rowName).toList ++ rest = source.rangeText.toList ++
      (" AS ".toList ++ (rowName.toList ++
        (" WHERE ".toList ++ ((source.joinText rowName).toList ++ rest)))) := by
    rw [source.render_eq]
    simp only [String.toList_append, List.append_assoc]
  rw [nameBehind, text, dropWhile_append_of_head range (asWord _)]
  exact takeWhile_append_of_head name (whereWord _)

theorem scanSubqueries_joins {joins : List Join} (row : isIdentifier rowName = true)
    (valid : ∀ join ∈ joins, join.IsValid) (rest : List Char) :
    scanSubqueries ((String.join (joins.map fun join =>
      join.render rowName ++ " AND ")).toList ++ rest) = scanSubqueries rest := by
  induction joins with
  | nil => rfl
  | cons join joins ih =>
      obtain ⟨⟨child, owner, parent⟩, others⟩ := List.forall_mem_cons.mp valid
      have left : ∀ c ∈ (dotted [rowName, join.child]).toList, isInWord c = true :=
        isInWord_dotted (by simp [row, child])
      have right : ∀ c ∈ (dotted [join.owner, join.parent]).toList, isInWord c = true :=
        isInWord_dotted (by simp [owner, parent])
      have equation : (join.render rowName ++ " AND ").toList =
          (dotted [rowName, join.child]).toList ++ (" = ".toList ++
            ((dotted [join.owner, join.parent]).toList ++ " AND ".toList)) := by
        simp [Join.render, dotted]
      have equal (text : List Char) : goesOn (" = ".toList ++ text) = true := rfl
      have and (text : List Char) : goesOn (" AND ".toList ++ text) = true := rfl
      rw [List.map_cons, String.join_cons, String.toList_append, equation]
      simp only [List.append_assoc]
      rw [scanSubqueries_word left (equal _), scanSubqueries_append (by decide),
        scanSubqueries_word right (and _), scanSubqueries_append (by decide)]
      exact ih others

/-- Nothing that is ranged over begins a subquery. -/
theorem Source.IsNamed.scanSubqueries_render (named : source.IsNamed)
    (row : isIdentifier rowName = true) (rest : List Char) :
    scanSubqueries ((source.render rowName).toList ++ rest) = scanSubqueries rest := by
  have name := isInWord_of_isIdentifier row
  have closed (text : List Char) : goesOn (")".toList ++ text) = true := rfl
  have asWord (text : List Char) : goesOn (" AS ".toList ++ text) = true := rfl
  have whereWord (text : List Char) : goesOn (" WHERE ".toList ++ text) = true := rfl
  rw [source.render_eq]
  cases source with
  | elements array =>
      have array := isInWord_dotted named.2
      simp only [rangeText, joinText, String.toList_append, List.append_assoc]
      rw [scanSubqueries_append (by decide), scanSubqueries_word array (closed _),
        scanSubqueries_append (by decide), scanSubqueries_append (by decide),
        scanSubqueries_word name (whereWord _), scanSubqueries_where]
      rfl
  | rows table joins =>
      have table := isInWord_of_isIdentifier named.1
      simp only [rangeText, joinText, String.toList_append, List.append_assoc]
      rw [scanSubqueries_word table (asWord _), scanSubqueries_append (by decide),
        scanSubqueries_word name (whereWord _), scanSubqueries_where]
      exact scanSubqueries_joins row named.2 rest

end Source

/-! ## The text of a condition -/

/-- The text has these subqueries, whatever follows it as behind an operand. -/
def Introduces (text : List Char) (names : List String) : Prop :=
  ∀ rest, goesOn rest = true →
    scanSubqueries (text ++ rest) = names.map String.toList ++ scanSubqueries rest

namespace Introduces

variable {front back : List Char} {names more : List String}

theorem word (h : ∀ c ∈ front, isInWord c = true) : Introduces front [] :=
  fun _ follows => scanSubqueries_word h follows

theorem quiet (h : 'E' ∉ front) : Introduces front [] := fun rest _ => scanSubqueries_append h rest

/-- Text that begins no subquery may stand in front. -/
theorem behind (h : 'E' ∉ front) (h' : Introduces back names) :
    Introduces (front ++ back) names := by
  intro rest follows
  rw [List.append_assoc, scanSubqueries_append h, h' rest follows]

/-- Text that goes on as behind an operand may follow. -/
theorem append (h : Introduces front names) (h' : Introduces back more)
    (border : ∀ rest, goesOn rest = true → goesOn (back ++ rest) = true) :
    Introduces (front ++ back) (names ++ more) := by
  intro rest follows
  rw [List.append_assoc, h _ (border rest follows), h' rest follows, List.map_append,
    List.append_assoc]

theorem wrap {text : String} (h : Introduces text.toList names) (needed : Bool) :
    Introduces (wrap needed text).toList names := by
  cases needed with
  | false => exact h
  | true =>
      have opened : 'E' ∉ ['('] := by decide
      have closed : Introduces [')'] [] := .quiet (by decide)
      have whole := (h.append closed fun _ _ => rfl).behind opened
      show Introduces ("(" ++ text ++ ")").toList names
      rw [String.toList_append, String.toList_append, List.append_assoc]
      simpa using whole

end Introduces

/-- An operator goes on behind its operand, and none is spelled with the first letter of a head. -/
theorem operator_goesOn (op : Operator) :
    (∀ rest, goesOn (' ' :: op.sql.toList ++ rest) = true) ∧ 'E' ∉ ' ' :: op.sql.toList ∧
      'E' ∉ (prefixText op).toList := by
  cases op <;> exact ⟨fun _ => rfl, by decide, by decide⟩

/-- The subqueries in the text of a condition are its tests, in their order. -/
theorem Condition.IsNamed.introduces {c : Condition} (named : c.IsNamed) (place : Place) :
    Introduces (c.renderIn place).toList c.rowNames := by
  induction c generalizing place with
  | parameter number =>
      have digits := (isDigits_toDigits number).2
      refine .quiet ?_
      rw [renderIn, String.toList_append, toList_toString]
      intro letter
      rcases List.mem_append.mp letter with dollar | digit
      · exact absurd dollar (by decide)
      · cases digits 'E' digit
  | column names => exact .word (isInWord_dotted named.2)
  | prefixed op operand grouping ih =>
      apply Introduces.wrap
      rw [String.toList_append]
      exact (ih named _).behind (operator_goesOn op).2.2
  | infixed left op right grouping ihl ihr =>
      obtain ⟨first, second⟩ := named
      obtain ⟨goesOn, quiet, -⟩ := operator_goesOn op
      apply Introduces.wrap
      have operator : 'E' ∉ ' ' :: op.sql.toList ++ [' '] := by simpa using quiet
      have whole := (ihl first (.leftOf op grouping)).append
        ((ihr second (.rightOf op grouping)).behind operator) fun rest _ => by
          rw [List.append_assoc, List.append_assoc]
          exact goesOn _
      simpa [Condition.rowNames] using whole
  | postfixed operand op grouping ih =>
      obtain ⟨goesOn, quiet, -⟩ := operator_goesOn op
      apply Introduces.wrap
      have whole := (ih named (.leftOf op grouping)).append (.quiet quiet) fun rest _ => goesOn rest
      simpa [Condition.rowNames] using whole
  | «exists» source rowName condition ih =>
      obtain ⟨range, row, inner⟩ := named
      intro rest follows
      have tested := ih inner source.place (')' :: rest) rfl
      have quiet : 'E' ∉ [')'] := by decide
      have closed : scanSubqueries (')' :: rest) = scanSubqueries rest :=
        scanSubqueries_append quiet rest
      have text : ((Condition.exists source rowName condition).renderIn place).toList ++ rest =
          subqueryHead ++ ((source.render rowName).toList ++
            ((condition.renderIn source.place).toList ++ ')' :: rest)) := by
        show (existsText (source.render rowName) (condition.renderIn source.place)).toList ++
          rest = _
        rw [toList_existsText, List.append_assoc, List.append_assoc, List.append_assoc]
        rfl
      rw [text, scanSubqueries_head, range.nameBehind_render row, range.scanSubqueries_render row,
        tested, closed]
      rfl

/-- Each collection test of a tree is a subquery of its text, and the other way round. The k-th of
them has a name that ends in an underscore and `k`, and the names are different from each other,
whatever collections, short names and stems there are. -/
theorem subqueryNames_ofNode {around : Surroundings} (outermost : around.IsOutermost) {tree : Node}
    (wellScoped : tree.IsWellScoped) {compiled : Compiled} (h : ofNode around tree = .ok compiled) :
    (subqueryNames compiled.sql).length = tree.tests ∧
      (∀ k name, (subqueryNames compiled.sql)[k]? = some name →
        ∃ stem, name = stem ++ "_" ++ toString (k + 1)) ∧
      (subqueryNames compiled.sql).Nodup := by
  obtain ⟨condition, out, compiles, rfl⟩ := compiles_of_ofNode h
  have named : condition.IsNamed := compiles.isNamed outermost.isNamed
  have found : subqueryNames condition.render = condition.rowNames := by
    have scanned := named.introduces .top [] rfl
    rw [List.append_nil] at scanned
    rw [subqueryNames, Condition.render, scanned]
    simp [scanSubqueries, Function.comp_def]
  have numbered : AreNumbered 1 condition.rowNames := compiles.areNumbered
  rw [found]
  refine ⟨compiles.length_rowNames wellScoped, ?_, numbered.nodup⟩
  intro k name hname
  obtain ⟨stem, rfl⟩ := numbered k name hname
  exact ⟨stem, by rw [aliasOf, Nat.add_comm 1 k]⟩

/-- Orders, and their lines under a short name that ends in a number. -/
def numberedSchema : Schema :=
  .ofTables [⟨"orders", none, [("Lines", .relational ⟨"lines", [⟨"order_id", "id"⟩], some "l_1"⟩)]⟩]

/-- `$.Items[*][?@.Tags[*][?@.name == $.EXISTS]] || $.item_1s[*][?@.open] && $.Lines[*][?@.open]` -/
def numberedTree : Node :=
  let tags : Node := .collection (.object .item "Tags")
    (.between (.field .item "name") .equal (.field .globalScope "EXISTS"))
  .between (.collection (.object .globalScope "Items") tags) .or
    (.between (.collection (.object .globalScope "item_1s") (.field .item "open")) .and
      (.collection (.object .globalScope "Lines") (.field .item "open")))

/-- Stems that end in a number themselves, and a column that is called like the head. -/
theorem subqueryNames_numberedTree : ∃ compiled,
    ofNode (.ofTable numberedSchema "orders") numberedTree = .ok compiled ∧
      compiled.sql = "EXISTS (SELECT 1 FROM unnest(Items) AS item_1 WHERE " ++
        "EXISTS (SELECT 1 FROM unnest(item_1.Tags) AS tag_2 WHERE tag_2.name = EXISTS)) OR " ++
        "EXISTS (SELECT 1 FROM unnest(item_1s) AS item_1_3 WHERE item_1_3.open) AND " ++
        "EXISTS (SELECT 1 FROM lines AS l_1_4 WHERE l_1_4.order_id = orders.id AND l_1_4.open)" ∧
      (subqueryNames compiled.sql).length = numberedTree.tests ∧
      (∀ k name, (subqueryNames compiled.sql)[k]? = some name →
        ∃ stem, name = stem ++ "_" ++ toString (k + 1)) ∧
      (subqueryNames compiled.sql).Nodup := by
  have wellScoped : numberedTree.IsWellScoped := by
    simp [numberedTree, Node.between, Node.IsWellScoped, Node.IsChain]
  refine ⟨_, rfl, by decide +kernel, ?_⟩
  exact subqueryNames_ofNode (.ofTable numberedSchema "orders") wellScoped rfl

end Sql

end DataFilter
