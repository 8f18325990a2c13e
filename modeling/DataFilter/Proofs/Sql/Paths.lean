import DataFilter.Proofs.Sql.Parameters
import DataFilter.Proofs.Sql.Referring
import DataFilter.Proofs.Sql.Subqueries
import Mathlib.Data.List.Basic

/-!
# What SQL tells of the path of a collection

Two trees that differ in the path of one collection have different SQL, with one exception. An array
is written with its whole path, and so is never taken for another one. But related rows are looked
up by the last name of the path alone, in the table of the row at its root, and what is written of
them is their relation: its table, its keys and what the rows are called. Two paths that lead to
relations that agree in these cannot be told apart, and nothing else is lost.
-/

namespace DataFilter.Sql

/-! ## Trees with a part left open -/

/-- A node without one of its parts. -/
inductive Frame where
  /-- A collection test without its predicate. -/
  | test (parent : Node)
  | prefixed (op : Operator) (grouping : Associativity)
  | leftOf (op : Operator) (right : Node) (grouping : Associativity)
  | rightOf (left : Node) (op : Operator) (grouping : Associativity)
  | postfixed (op : Operator) (grouping : Associativity)

namespace Frame

/-- The node with the part. -/
def fill (frame : Frame) (part : Node) : Node :=
  match frame with
  | test parent => .collection parent part
  | prefixed op grouping => .prefixed op part grouping
  | leftOf op right grouping => .infixed part op right grouping
  | rightOf left op grouping => .infixed left op part grouping
  | postfixed op grouping => .postfixed part op grouping

/-- The tree with the part inside of all frames, of which the outermost comes first. -/
def plug (frames : List Frame) (part : Node) : Node := frames.foldr fill part

/-- The test that the part stands in, if there is one. What its rows are called has no say in what
they are, so that they have no name here. -/
def ownTests : Frame → List EnclosingTest
  | test parent => [⟨parent, ""⟩]
  | _ => []

/-- The tests around the part, the innermost first. -/
def tests : List Frame → List EnclosingTest
  | [] => []
  | outer :: inner => tests inner ++ outer.ownTests

end Frame

/-! ## What is written of related rows -/

/-- What a test on related rows shows of their relation. -/
structure RowRange where
  table : String
  keys : List JoinKey
  /-- What the rows are called, in front of the number of the test. -/
  stem : String

/-- The related rows that a collection inside of tests is stored as, if it is. -/
def rowRange? (schema : Schema) (root : Option TableSchema) (tests : List EnclosingTest)
    (parent : Node) : Option RowRange :=
  parent.name?.bind fun name =>
    (relation? (ownerTable schema root tests parent) parent).map fun relation =>
      ⟨relation.table, relation.keys, relation.shortName.getD (singularize name)⟩

/-- The joins of keys to an outer row. -/
def joinsOn (owner : String) (keys : List JoinKey) : List Join :=
  keys.map fun key => ⟨key.child, owner, key.parent⟩

section Tests

variable {schema : Schema} {root : Option TableSchema} {tests others : List EnclosingTest}

theorem rowRange?_object (scope : Node) (name : String) :
    rowRange? schema root tests (.object scope name) =
      (relation? (ownerTable schema root tests (.object scope name)) (.object scope name)).map
        fun relation =>
          ⟨relation.table, relation.keys, relation.shortName.getD (singularize name)⟩ := rfl

theorem rowTable_congr (same : tests.map (·.parent) = others.map (·.parent)) :
    rowTable schema root tests = rowTable schema root others := by
  induction tests generalizing others with
  | nil =>
      obtain rfl : others = [] := List.map_eq_nil_iff.mp same.symm
      rfl
  | cons test outer ih =>
      obtain ⟨test', outer', rfl, first, behind⟩ := List.map_eq_cons_iff.mp same.symm
      rw [rowTable_cons, rowTable_cons, ownerTable, ownerTable, ih behind.symm, first]

/-- The names of the rows around do not matter. -/
theorem rowRange?_congr (same : tests.map (·.parent) = others.map (·.parent)) (parent : Node) :
    rowRange? schema root tests parent = rowRange? schema root others parent := by
  rw [rowRange?, rowRange?, ownerTable, ownerTable, rowTable_congr same]

/-- Collections with the same root belong to the same row. -/
theorem ownerName?_congr {scope scope' : Node} (roots : scope.root? = scope'.root?)
    {name name' : String} :
    ownerName? root tests (.object scope name) = ownerName? root tests (.object scope' name') := by
  rw [ownerName?, ownerName?, Node.root?, Node.root?, roots]

end Tests

section Ranges

variable {around : Surroundings} {tests : List EnclosingTest} {scope : Node} {name : String}
  {number : Nat} {source : Source} {rowName : String} {row : Row}

/-- A test ranges over related rows, or else over the array at the path of its collection. -/
theorem Ranges.elements_or_rows (named : around.IsNamedAfterTable)
    (h : Ranges (around.within tests) (.object scope name) name number source rowName row) :
    (rowRange? around.schema around.document.table tests (.object scope name) = none ∧
      ∃ root base, scope.root? = some root ∧ (around.within tests).base? root = some base ∧
        source = .elements (base ++ (scope.path ++ [name]))) ∨
    ∃ range owner,
      rowRange? around.schema around.document.table tests (.object scope name) = some range ∧
        ownerName? around.document.table tests (.object scope name) = some owner ∧
        source = .rows range.table (joinsOn owner range.keys) ∧
        rowName = aliasOf range.stem number ∧
        row = ⟨some rowName, around.schema.table? range.table⟩ := by
  have right := h.isRight named
  cases h with
  | elements owned stored anchored found _ =>
      refine .inl ⟨?_, _, _, anchored, found, rfl⟩
      rw [rowRange?_object, right.1, Option.map_none]
  | @rows _ relation owned stored _ _ _ =>
      obtain ⟨relation', owner, found, called, htable, hjoins⟩ := right
      rw [Surroundings.table_of_owner? owned] at stored
      obtain rfl : relation = relation' :=
        Option.some.inj ((relation?_eq_some stored).symm.trans found)
      refine .inr ⟨⟨relation.table, relation.keys, relation.shortName.getD (singularize name)⟩,
        owner, ?_, called, ?_, rfl, rfl⟩
      · rw [rowRange?_object, found, Option.map_some]
      · rw [hjoins, joinsOn]

end Ranges

/-! ## What can be told from a text -/

/-- Of a text it can be told what stands in front of the first blank, and what behind it. -/
theorem append_inj_of_blank {a b x y : String} (between : String)
    (blank : between.toList.head? = some ' ') (ha : ' ' ∉ a.toList) (hb : ' ' ∉ b.toList)
    (same : a ++ (between ++ x) = b ++ (between ++ y)) : a = b ∧ x = y := by
  have front {c : String} (hc : ' ' ∉ c.toList) (z : String) :
      (c ++ (between ++ z)).toList.takeWhile (· ≠ ' ') = c.toList := by
    have stop : ∀ d ∈ (between ++ z).toList.head?, decide (d ≠ ' ') = false := by
      intro d hd
      rw [String.toList_append, List.head?_append, blank] at hd
      cases hd
      rfl
    rw [String.toList_append]
    exact takeWhile_append_of_head (ne_blank_of_notMem hc) stop
  obtain rfl : a = b := by
    rw [← String.toList_inj, ← front ha x, ← front hb y, same]
  exact ⟨rfl, (String.append_right_inj between).mp ((String.append_right_inj a).mp same)⟩

/-- The names between the dots can be told. -/
theorem dotted_injective {names others : List String}
    (h : names ≠ [] ∧ ∀ name ∈ names, isIdentifier name = true)
    (h' : others ≠ [] ∧ ∀ name ∈ others, isIdentifier name = true)
    (same : dotted names = dotted others) : names = others := by
  have parts {names : List String}
      (h : names ≠ [] ∧ ∀ name ∈ names, isIdentifier name = true) :
      (dotted names).toList.splitOn '.' = names.map String.toList := by
    rw [dotted, String.toList_intercalate]
    refine List.splitOn_intercalate '.' ?_ (mt List.map_eq_nil_iff.mp h.1)
    intro part hpart dot
    obtain ⟨name, hname, rfl⟩ := List.mem_map.mp hpart
    cases isNameChar_of_isName (h.2 name hname) '.' dot
  have lists : names.map String.toList = others.map String.toList := by
    rw [← parts h, ← parts h', same]
  exact List.map_injective_iff.mpr (fun _ _ heq => String.toList_inj.mp heq) lists

theorem joinText_cons (rowName table : String) (join : Join) (joins : List Join) :
    (Source.rows table (join :: joins)).joinText rowName =
      (rowName ++ ".") ++ (join.child ++ (" = " ++ ((join.owner ++ ".") ++
        (join.parent ++ (" AND " ++ (Source.rows table joins).joinText rowName))))) := by
  simp only [Source.joinText, Join.render, List.map_cons, String.join_cons, String.append_assoc]

/-- The keys of joins can be told. -/
theorem joinText_injective {rowName owner table : String} {keys others : List JoinKey}
    (named : (Source.rows table (joinsOn owner keys)).IsNamed)
    (named' : (Source.rows table (joinsOn owner others)).IsNamed)
    (same : (Source.rows table (joinsOn owner keys)).joinText rowName =
      (Source.rows table (joinsOn owner others)).joinText rowName) : keys = others := by
  induction keys generalizing others with
  | nil =>
      cases others with
      | nil => rfl
      | cons key others => simp [joinsOn, Source.joinText, Join.render] at same
  | cons key keys ih =>
      cases others with
      | nil => simp [joinsOn, Source.joinText, Join.render] at same
      | cons other others =>
          obtain ⟨⟨child, -, parent⟩, behind⟩ := List.forall_mem_cons.mp named.2
          obtain ⟨⟨child', -, parent'⟩, behind'⟩ := List.forall_mem_cons.mp named'.2
          rw [joinsOn, joinsOn, List.map_cons, List.map_cons, joinText_cons, joinText_cons,
            String.append_right_inj] at same
          obtain ⟨sameChild, same⟩ := append_inj_of_blank " = " rfl
            (blank_notMem_of_isIdentifier child) (blank_notMem_of_isIdentifier child') same
          rw [String.append_right_inj] at same
          obtain ⟨sameParent, same⟩ := append_inj_of_blank " AND " rfl
            (blank_notMem_of_isIdentifier parent) (blank_notMem_of_isIdentifier parent') same
          have first : key = other := by
            cases key
            cases other
            exact congrArg₂ JoinKey.mk sameChild sameParent
          rw [first, ih ⟨named.1, behind⟩ ⟨named'.1, behind'⟩ same]

theorem existsText_inj {range range' text text' : String} :
    existsText range text = existsText range' text' ↔ range ++ text = range' ++ text' := by
  rw [← String.toList_inj, toList_existsText, toList_existsText, List.append_right_inj,
    ← List.append_assoc, ← List.append_assoc, List.append_left_inj, ← String.toList_append,
    ← String.toList_append, String.toList_inj]

/-- What is ranged over can be told from a text, and the name of its rows. -/
theorem Source.IsNamed.render_append_inj {source source' : Source} {rowName rowName' : String}
    (named : source.IsNamed) (named' : source'.IsNamed) (row : isIdentifier rowName = true)
    (row' : isIdentifier rowName' = true) {text text' : String}
    (same : source.render rowName ++ text = source'.render rowName' ++ text') :
    source.rangeText = source'.rangeText ∧ rowName = rowName' ∧
      source.joinText rowName ++ text = source'.joinText rowName' ++ text' := by
  simp only [Source.render_eq, String.append_assoc] at same
  obtain ⟨range, same⟩ := append_inj_of_blank " AS " rfl named.blank_notMem_rangeText
    named'.blank_notMem_rangeText same
  obtain ⟨name, same⟩ := append_inj_of_blank " WHERE " rfl (blank_notMem_of_isIdentifier row)
    (blank_notMem_of_isIdentifier row') same
  exact ⟨range, name, same⟩

/-- An array is not called like a table. -/
theorem rangeText_elements_ne {array : List String} {table : String}
    (h : isIdentifier table = true) (joins : List Join) :
    (Source.elements array).rangeText ≠ (Source.rows table joins).rangeText := by
  intro same
  have paren : '(' ∈ ("unnest(" ++ dotted array ++ ")").toList := by simp
  rw [show "unnest(" ++ dotted array ++ ")" = table from same] at paren
  cases isNameChar_of_isName h '(' paren

theorem rangeText_elements_inj {array other : List String} :
    (Source.elements array).rangeText = (Source.elements other).rangeText ↔
      dotted array = dotted other := by
  rw [Source.rangeText, Source.rangeText, String.append_left_inj, String.append_right_inj]

/-! ## Two tests in the same place -/

section Place

variable {around : Surroundings} {tests : List EnclosingTest} {scope scope' : Node}
  {name name' : String} {number : Nat} {source source' : Source} {rowName rowName' : String}
  {row row' : Row}

/-- Tests on the rows of one relation range over the same. -/
theorem Ranges.eq_of_rowRange? (named : around.IsNamedAfterTable)
    (h : Ranges (around.within tests) (.object scope name) name number source rowName row)
    (h' : Ranges (around.within tests) (.object scope' name') name' number source' rowName' row')
    (roots : scope.root? = scope'.root?) {range : RowRange}
    (found : rowRange? around.schema around.document.table tests (.object scope name) = some range)
    (found' : rowRange? around.schema around.document.table tests (.object scope' name') =
      some range) : source = source' ∧ rowName = rowName' ∧ row = row' := by
  rcases h.elements_or_rows named with ⟨stored, -⟩ | ⟨r, owner, stored, called, rfl, rfl, rfl⟩
  · exact absurd (stored.symm.trans found) nofun
  rcases h'.elements_or_rows named with
    ⟨stored', -⟩ | ⟨r', owner', stored', called', rfl, rfl, rfl⟩
  · exact absurd (stored'.symm.trans found') nofun
  obtain rfl : r = range := Option.some.inj (stored.symm.trans found)
  obtain rfl : r' = r := Option.some.inj (stored'.symm.trans found')
  obtain rfl : owner = owner' := Option.some.inj
    (called.symm.trans ((ownerName?_congr roots).trans called'))
  exact ⟨rfl, rfl, rfl⟩

/-- Tests on different paths whose texts are the same range over the rows of one relation. -/
theorem Ranges.exists_rowRange? (named : around.IsNamedAfterTable)
    (plain : (around.within tests).IsNamed)
    (h : Ranges (around.within tests) (.object scope name) name number source rowName row)
    (h' : Ranges (around.within tests) (.object scope' name') name' number source' rowName' row')
    (roots : scope.root? = scope'.root?) (paths : scope.path ++ [name] ≠ scope'.path ++ [name'])
    {c d : Condition} (determined : row = row' → c = d)
    (same : source.render rowName ++ c.renderIn source.place =
      source'.render rowName' ++ d.renderIn source'.place) :
    ∃ range,
      rowRange? around.schema around.document.table tests (.object scope name) = some range ∧
        rowRange? around.schema around.document.table tests (.object scope' name') =
          some range := by
  obtain ⟨sourceNamed, rowNamed, -⟩ := h.isNamed plain
  obtain ⟨sourceNamed', rowNamed', -⟩ := h'.isNamed plain
  obtain ⟨ranges, rows, joined⟩ :=
    sourceNamed.render_append_inj sourceNamed' rowNamed rowNamed' same
  rcases h.elements_or_rows named with
    ⟨-, root, base, anchored, found, rfl⟩ |
    ⟨⟨table, keys, stem⟩, owner, stored, called, rfl, rfl, rfl⟩
  all_goals rcases h'.elements_or_rows named with
    ⟨-, root', base', anchored', found', rfl⟩ |
    ⟨⟨table', keys', stem'⟩, owner', stored', called', rfl, rfl, rfl⟩
  · -- two arrays have different paths, and these can be told
    obtain rfl : root = root' := Option.some.inj (anchored.symm.trans (roots.trans anchored'))
    obtain rfl : base = base' := Option.some.inj (found.symm.trans found')
    have arrays := dotted_injective sourceNamed sourceNamed' (rangeText_elements_inj.mp ranges)
    exact absurd (List.append_cancel_left arrays) paths
  · exact absurd ranges (rangeText_elements_ne sourceNamed'.1 _)
  · exact absurd ranges.symm (rangeText_elements_ne sourceNamed.1 _)
  · -- the predicates are the same, so that the joins in front of them can be told
    obtain rfl : table = table' := ranges
    obtain ⟨rfl, -⟩ := aliasOf_injective rows
    obtain rfl : owner = owner' := Option.some.inj
      (called.symm.trans ((ownerName?_congr roots).trans called'))
    obtain rfl : c = d := determined rfl
    obtain rfl : keys = keys' := joinText_injective sourceNamed sourceNamed'
      ((String.append_left_inj _).mp joined)
    exact ⟨_, stored, stored'⟩

end Place

/-- What has been written of a tree does not depend on where it stands. -/
theorem Compiles.length_rowNames_eq {around around' : Surroundings} {tree : Node}
    {out after out' after' : Output} {c d : Condition} (h : Compiles around tree out c after)
    (h' : Compiles around' tree out' d after') : c.rowNames.length = d.rowNames.length := by
  induction h generalizing around' out' after' d with
  | literal =>
      cases h'
      rfl
  | field =>
      cases h'
      rfl
  | collection _ _ ih =>
      cases h' with
      | collection _ inner => exact congrArg (· + 1) (ih inner)
  | prefixed _ ih =>
      cases h' with
      | prefixed inner =>
          have same := ih inner
          exact same
  | infixed _ _ ihl ihr =>
      cases h' with
      | infixed first second =>
          rw [Condition.rowNames, Condition.rowNames, List.length_append, List.length_append,
            ihl first, ihr second]
  | postfixed _ ih =>
      cases h' with
      | postfixed inner =>
          have same := ih inner
          exact same

theorem Compiles.after_eq {around around' : Surroundings} {tree : Node}
    {out after after' : Output} {c d : Condition} (h : Compiles around tree out c after)
    (h' : Compiles around' tree out d after') : after = after' := by
  have parameters : after.parameters = after'.parameters :=
    List.map_injective_iff.mpr (fun _ _ heq => Operand.literal.inj heq)
      (h.slots.trans h'.slots.symm)
  have aliases : after.aliases = after'.aliases := by
    rw [h.aliases_eq, h'.aliases_eq, h.length_rowNames_eq h']
  cases after
  cases after'
  exact congrArg₂ Output.mk parameters aliases

/-! ## The tree around -/

theorem wrap_inj {needed : Bool} {text text' : String} :
    wrap needed text = wrap needed text' ↔ text = text' := by
  cases needed with
  | false => exact Iff.rfl
  | true =>
      show "(" ++ text ++ ")" = "(" ++ text' ++ ")" ↔ _
      rw [String.append_left_inj, String.append_right_inj]

section Frames

variable {around : Surroundings} {tests : List EnclosingTest} {out after after' : Output}
  {c d : Condition}

/-- Two parts in one place, and two trees that have them inside of a frame. -/
theorem Frame.compile_fill {a b : Node} (plain : (around.within tests).IsNamed) (frame : Frame)
    (ha : compile (around.within tests) (frame.fill a) out = .ok (c, after))
    (hb : compile (around.within tests) (frame.fill b) out = .ok (d, after')) :
    ∃ inner start c' d' stop stop',
      inner.map (·.parent) = (frame.ownTests ++ tests).map (·.parent) ∧
      (around.within inner).IsNamed ∧
      compile (around.within inner) a start = .ok (c', stop) ∧
      compile (around.within inner) b start = .ok (d', stop') ∧
      (stop = stop' → after = after' ∧ ∀ place, ∃ place',
        c.renderIn place = d.renderIn place ↔ c'.renderIn place' = d'.renderIn place') := by
  cases frame with
  | test parent =>
      obtain ⟨scope, name, source, rowName, row, c', rfl, named, ranges, innerA, rfl⟩ :=
        compile_collection_eq_ok ha
      obtain ⟨_, _, _, _, _, d', ⟨⟩, named', -, innerB, rfl⟩ := compile_collection_eq_ok hb
      obtain ⟨⟨⟩, -⟩ := Prod.mk.inj (Except.ok.inj (named.symm.trans named'))
      obtain ⟨-, rowNamed, -⟩ := ranges.isNamed plain
      rw [ranges.inside] at innerA innerB
      refine ⟨⟨.object scope name, rowName⟩ :: tests, _, c', d', after, after', rfl, ?_, innerA,
        innerB, ?_⟩
      · rintro row ⟨⟩ name ⟨⟩
        exact rowNamed
      · intro same
        refine ⟨same, fun _ => ⟨source.place, ?_⟩⟩
        show existsText _ _ = existsText _ _ ↔ _
        rw [existsText_inj, String.append_right_inj]
  | prefixed op grouping =>
      obtain ⟨c', innerA, rfl⟩ := compile_prefixed_eq_ok ha
      obtain ⟨d', innerB, rfl⟩ := compile_prefixed_eq_ok hb
      refine ⟨tests, out, c', d', after, after', rfl, plain, innerA, innerB, ?_⟩
      intro same
      refine ⟨same, fun place => ⟨.afterPrefix op grouping, ?_⟩⟩
      rw [Condition.renderIn, Condition.renderIn, wrap_inj, String.append_right_inj]
  | leftOf op right grouping =>
      obtain ⟨c', stop, r, innerA, hr, rfl⟩ := compile_infixed_eq_ok ha
      obtain ⟨d', stop', r', innerB, hr', rfl⟩ := compile_infixed_eq_ok hb
      refine ⟨tests, out, c', d', stop, stop', rfl, plain, innerA, innerB, ?_⟩
      -- what stands behind the part is written the same, since the same was written before it
      rintro rfl
      obtain ⟨rfl, rfl⟩ := Prod.mk.inj (Except.ok.inj (hr.symm.trans hr'))
      refine ⟨rfl, fun place => ⟨.leftOf op grouping, ?_⟩⟩
      rw [Condition.renderIn, Condition.renderIn, wrap_inj, String.append_left_inj,
        String.append_left_inj, String.append_left_inj, String.append_left_inj]
  | rightOf left op grouping =>
      obtain ⟨l, start, c', hl, innerA, rfl⟩ := compile_infixed_eq_ok ha
      obtain ⟨l', start', d', hl', innerB, rfl⟩ := compile_infixed_eq_ok hb
      obtain ⟨rfl, rfl⟩ := Prod.mk.inj (Except.ok.inj (hl.symm.trans hl'))
      refine ⟨tests, start, c', d', after, after', rfl, plain, innerA, innerB, ?_⟩
      intro same
      refine ⟨same, fun place => ⟨.rightOf op grouping, ?_⟩⟩
      rw [Condition.renderIn, Condition.renderIn, wrap_inj, String.append_right_inj]
  | postfixed op grouping =>
      obtain ⟨c', innerA, rfl⟩ := compile_postfixed_eq_ok ha
      obtain ⟨d', innerB, rfl⟩ := compile_postfixed_eq_ok hb
      refine ⟨tests, out, c', d', after, after', rfl, plain, innerA, innerB, ?_⟩
      intro same
      refine ⟨same, fun place => ⟨.leftOf op grouping, ?_⟩⟩
      rw [Condition.renderIn, Condition.renderIn, wrap_inj, String.append_left_inj,
        String.append_left_inj]

variable {first second predicate : Node}

/-- Two tests in one place that differ in the path of their collection. -/
theorem renderIn_collection_eq_iff (named : around.IsNamedAfterTable)
    (plain : (around.within tests).IsNamed) (roots : first.root? = second.root?)
    (paths : first.path ≠ second.path)
    (h : compile (around.within tests) (.collection first predicate) out = .ok (c, after))
    (h' : compile (around.within tests) (.collection second predicate) out = .ok (d, after')) :
    after = after' ∧ ∀ place, c.renderIn place = d.renderIn place ↔
      ∃ range, rowRange? around.schema around.document.table tests first = some range ∧
        rowRange? around.schema around.document.table tests second = some range := by
  obtain ⟨scope, name, source, rowName, row, c, rfl, -, ranges, inner, rfl⟩ :=
    compile_collection_eq_ok h
  obtain ⟨scope', name', source', rowName', row', d, rfl, -, ranges', inner', rfl⟩ :=
    compile_collection_eq_ok h'
  have determined : row = row' → c = d := by
    rintro rfl
    exact (Prod.mk.inj (Except.ok.inj (inner.symm.trans inner'))).1
  refine ⟨(compiles_of_compile inner).after_eq (compiles_of_compile inner'), fun place => ?_⟩
  show existsText _ _ = existsText _ _ ↔ _
  rw [existsText_inj]
  constructor
  · exact ranges.exists_rowRange? named plain ranges' roots paths determined
  · rintro ⟨range, found, found'⟩
    obtain ⟨rfl, rfl, rfl⟩ := ranges.eq_of_rowRange? named ranges' roots found found'
    rw [determined rfl]

/-- Two trees that differ in the path of one collection. -/
theorem renderIn_plug_eq_iff (named : around.IsNamedAfterTable)
    (plain : (around.within tests).IsNamed) (roots : first.root? = second.root?)
    (paths : first.path ≠ second.path) {frames : List Frame}
    (h : compile (around.within tests) (Frame.plug frames (.collection first predicate)) out =
      .ok (c, after))
    (h' : compile (around.within tests) (Frame.plug frames (.collection second predicate)) out =
      .ok (d, after')) :
    after = after' ∧ ∀ place, c.renderIn place = d.renderIn place ↔
      ∃ range, rowRange? around.schema around.document.table (Frame.tests frames ++ tests) first =
          some range ∧
        rowRange? around.schema around.document.table (Frame.tests frames ++ tests) second =
          some range := by
  -- from the outermost frame inwards, with the tests on the way put in front of those around
  induction frames generalizing tests out after after' c d with
  | nil => exact renderIn_collection_eq_iff named plain roots paths h h'
  | cons outer frames ih =>
      obtain ⟨inner, start, c', d', stop, stop', parents, innerPlain, innerFirst, innerSecond,
        whole⟩ := Frame.compile_fill plain outer h h'
      obtain ⟨same, texts⟩ := ih innerPlain innerFirst innerSecond
      obtain ⟨sameAfter, outerTexts⟩ := whole same
      refine ⟨sameAfter, fun place => ?_⟩
      obtain ⟨place', text⟩ := outerTexts place
      have around : (Frame.tests frames ++ inner).map (·.parent) =
          (Frame.tests (outer :: frames) ++ tests).map (·.parent) := by
        rw [Frame.tests, List.append_assoc, List.map_append, parents, ← List.map_append]
      rw [text, texts place', rowRange?_congr around, rowRange?_congr around]

end Frames

/-- The path of a collection is lost in SQL in one case only. Of two trees that differ in nothing
but the names on the way to one collection, the texts are the same if and only if both names at the
end are stored as related rows, in the table of the row at the root, and the relations agree in all
that is written of them: the table, the keys, and what the rows are called. -/
theorem sql_plug_eq_iff {around : Surroundings} (outermost : around.IsOutermost)
    {first second predicate : Node} {frames : List Frame} (roots : first.root? = second.root?)
    (paths : first.path ≠ second.path) {compiled compiled' : Compiled}
    (h : ofNode around (Frame.plug frames (.collection first predicate)) = .ok compiled)
    (h' : ofNode around (Frame.plug frames (.collection second predicate)) = .ok compiled') :
    compiled.sql = compiled'.sql ↔
      ∃ range,
        rowRange? around.schema around.document.table (Frame.tests frames) first = some range ∧
        rowRange? around.schema around.document.table (Frame.tests frames) second =
          some range := by
  obtain ⟨condition, out, written, rfl⟩ := ofNode_eq_ok h
  obtain ⟨condition', out', written', rfl⟩ := ofNode_eq_ok h'
  rw [← outermost.within_nil] at written written'
  have plain : (around.within []).IsNamed := nofun
  have texts := (renderIn_plug_eq_iff outermost.isNamedAfterTable plain roots paths written
    written').2 .top
  rwa [List.append_nil] at texts

/-- `$.Lines[*][?… && @.open]` -/
def lineFrames : List Frame :=
  [.test (.object .globalScope "Lines"), .leftOf .and (.field .item "open") .left]

/-- The parts of a line, and the parts in its crate. -/
theorem sql_parts_eq_iff :
    let parts : Node := .object .item "Parts"
    let crated : Node := .object (.object .item "crate") "Parts"
    ∃ compiled compiled',
      ofNode (.ofTable nestedSchema "orders")
          (Frame.plug lineFrames (.collection parts (.field .item "open"))) = .ok compiled ∧
        ofNode (.ofTable nestedSchema "orders")
          (Frame.plug lineFrames (.collection crated (.field .item "open"))) = .ok compiled' ∧
        compiled.sql = "EXISTS (SELECT 1 FROM lines AS l_1 WHERE l_1.order_id = o.id AND " ++
          "EXISTS (SELECT 1 FROM parts AS part_2 WHERE part_2.line_id = l_1.id AND part_2.open)" ++
          " AND l_1.open)" ∧
        (compiled.sql = compiled'.sql ↔
          ∃ range,
            rowRange? nestedSchema (nestedSchema.table? "orders") (Frame.tests lineFrames) parts =
              some range ∧
            rowRange? nestedSchema (nestedSchema.table? "orders") (Frame.tests lineFrames) crated =
              some range) := by
  intro parts crated
  have roots : parts.root? = crated.root? := rfl
  have paths : parts.path ≠ crated.path := by decide
  have first : ofNode (.ofTable nestedSchema "orders")
      (Frame.plug lineFrames (.collection parts (.field .item "open"))) = .ok ⟨_, _⟩ := rfl
  have second : ofNode (.ofTable nestedSchema "orders")
      (Frame.plug lineFrames (.collection crated (.field .item "open"))) = .ok ⟨_, _⟩ := rfl
  refine ⟨_, _, first, second, by decide +kernel, ?_⟩
  exact sql_plug_eq_iff (.ofTable nestedSchema "orders") roots paths first second

/-- The items of a warehouse of a store are looked up as those of the store. -/
theorem warehouse_is_lost :
    let priced : Node := .between (.field .item "price") .greaterThan (.literal (.integer 10))
    let items : Node := .collection (.object .globalScope "Items") priced
    let stored : Node := .collection (.object (.object .globalScope "warehouse") "Items") priced
    items.IsWellScoped ∧ stored.IsWellScoped ∧ ∃ compiled,
      ofNode (.ofTable sampleSchema "stores") items = .ok compiled ∧
        ofNode (.ofTable sampleSchema "stores") stored = .ok compiled ∧
        compiled.sql = "EXISTS (SELECT 1 FROM items AS item_1 WHERE item_1.store_id = s.id AND " ++
          "item_1.price > $1)" := by
  intro priced items stored
  refine ⟨⟨trivial, trivial, trivial⟩, ⟨trivial, trivial, trivial⟩, _, rfl, rfl, ?_⟩
  decide +kernel

end DataFilter.Sql
