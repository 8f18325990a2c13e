import DataFilter.Proofs.Evaluation.Visiting
import DataFilter.Proofs.Operation.Table
import DataFilter.Proofs.Sql.Reading
import DataFilter.Proofs.Sql.Semantics

/-!
# SQL and evaluation agree

The SQL of a tree is true of a document exactly where the tree is decided to be true, with two
reservations. A collection test of which the answer is unknown is false in SQL, so its value may be
used where unknown counts as false, under `AND` and `OR` alone, but not be negated, compared or
tested for NULL. And a reference to the document must not begin with the name of a row, since SQL
takes it for one to that row.
-/

namespace DataFilter

/-! ## Where the two may differ -/

namespace Node

/-- The first names of the references that begin at the document. -/
def documentNames : Node → List String
  | value _ | globalScope | item | object _ _ => []
  | field scope name =>
    if scope.root? = some .document then (scope.path ++ [name]).head?.toList else []
  | collection parent predicate =>
    (if parent.root? = some .document then parent.path.head?.toList else []) ++
      predicate.documentNames
  | prefixed _ operand _ => operand.documentNames
  | infixed left _ right _ => left.documentNames ++ right.documentNames
  | postfixed operand _ _ => operand.documentNames

/-- The elements that a test ranges over. -/
def itemsOf (setting : Setting) (parent : Node) (element : Option Value) :
    Except EvalError (List Value) := do
  let m ← parent.meaning setting element
  let scope ← m.toScope
  parent.elementsOf setting scope

/-- No test has an unknown answer, except where that counts as false: `lenient` says whether it does
at the place of the tree. -/
def TestsAreKnown (setting : Setting) : Bool → Node → Option Value → Prop
  | _, value _, _ | _, globalScope, _ | _, item, _ | _, object _ _, _ | _, field _ _, _ => True
  | lenient, collection parent predicate, element =>
    (lenient = false →
      (collection parent predicate).meaning setting element ≠ .ok (.value .null)) ∧
      ∀ items, itemsOf setting parent element = .ok items →
        ∀ row ∈ items, predicate.TestsAreKnown setting true (some row)
  | _, prefixed _ operand _, element => operand.TestsAreKnown setting false element
  | lenient, infixed left op right _, element =>
    left.TestsAreKnown setting (lenient && (op = .and || op = .or)) element ∧
      right.TestsAreKnown setting (lenient && (op = .and || op = .or)) element
  | _, postfixed operand _ _, element => operand.TestsAreKnown setting false element

/-- Tests stand under `AND` and `OR` alone, or in the tests of others. -/
def TestsAreJoined : Bool → Node → Prop
  | _, value _ | _, globalScope | _, item | _, object _ _ | _, field _ _ => True
  | lenient, collection _ predicate => lenient = true ∧ predicate.TestsAreJoined true
  | _, prefixed _ operand _ => operand.TestsAreJoined false
  | lenient, infixed left op right _ =>
    left.TestsAreJoined (lenient && (op = .and || op = .or)) ∧
      right.TestsAreJoined (lenient && (op = .and || op = .or))
  | _, postfixed operand _ _ => operand.TestsAreJoined false

/-- Where tests are only joined, it does not matter whether their answers are known. -/
theorem TestsAreJoined.testsAreKnown {node : Node} {lenient : Bool}
    (h : node.TestsAreJoined lenient) (setting : Setting) (element : Option Value) :
    node.TestsAreKnown setting lenient element := by
  induction node generalizing lenient element with
  | collection parent predicate _ ih =>
      obtain ⟨rfl, inner⟩ := h
      exact ⟨nofun, fun items _ row _ => ih inner (some row)⟩
  | prefixed op operand grouping ih => exact ih h element
  | infixed left op right grouping ihl ihr => exact ⟨ihl h.1 element, ihr h.2 element⟩
  | postfixed operand op grouping ih => exact ih h element
  | _ => trivial

end Node

namespace Sql

/-! ## Paths -/

section Paths

variable {scene : Scene} {element : Option Value}

theorem Scene.follow_append (scene : Scene) (scope : Scope) (front back : List String) :
    scene.follow scope (front ++ back) =
      (scene.follow scope front).bind fun middle => scene.follow middle back := by
  induction front generalizing scope with
  | nil => rfl
  | cons name front ih =>
      rw [List.cons_append, Scene.follow, Scene.follow]
      split
      · exact ih _
      · rfl

/-- A chain that opens a scope leads there from its root, name by name. -/
theorem follow_path {node : Node} {scope : Scope} {root : Root}
    (opens : node.meaning scene.setting element = .ok (.scope scope))
    (anchored : node.root? = some root) :
    ∃ start, root.scope? element = some start ∧ scene.follow start node.path = some scope := by
  induction node generalizing scope with
  | globalScope =>
      cases anchored
      cases opens
      exact ⟨.document, rfl, rfl⟩
  | item =>
      cases anchored
      cases element with
      | none => cases opens
      | some row =>
          cases opens
          exact ⟨.nested row, rfl, rfl⟩
  | object parent name ih =>
      obtain ⟨inner, v, hinner, found, ⟨⟩⟩ := Node.meaning_object_eq_ok opens
      obtain ⟨start, hstart, follows⟩ := ih hinner anchored
      refine ⟨start, hstart, ?_⟩
      rw [Node.path, Scene.follow_append, follows, Option.bind_some, Scene.follow, found]
      rfl
  | _ =>
      obtain ⟨v, ⟨⟩⟩ := Node.meaning_isValue rfl opens

/-- The rows of the scene are those of the surroundings, of which no table is known. -/
structure Scene.Fits (scene : Scene) (around : Surroundings) (element : Option Value) : Prop where
  document : around.document.table = none
  element : ∀ row ∈ around.element, row.table = none ∧
    ∀ v ∈ element, ∃ name, row.name = some name ∧ scene.rows.lookup name = some v

/-- A reference is found where its path leads, unless a row has the name that it begins with. -/
theorem find_reference {around : Surroundings} (fits : scene.Fits around element) {root : Root}
    {base path : List String} (found : around.base? root = some base)
    (free : root = .document → ∀ first ∈ path.head?, first ∉ scene.rows.map Prod.fst)
    {start scope : Scope} (hstart : root.scope? element = some start)
    (follows : scene.follow start path = some scope) : scene.find (base ++ path) = some scope := by
  cases root with
  | document =>
      cases found
      cases hstart
      cases path with
      | nil => exact follows
      | cons first rest =>
          -- no row has the name, so that it is looked up in the document
          have unknown : scene.rows.lookup first = none := by
            rw [List.lookup_eq_none_iff]
            intro row hrow
            rw [bne_iff_ne]
            rintro rfl
            exact free rfl _ rfl (List.mem_map.mpr ⟨row, hrow, rfl⟩)
          rw [List.nil_append, Scene.find, unknown]
          exact follows
  | element =>
      obtain ⟨row, hrow, rfl⟩ := Option.map_eq_some_iff.mp found
      obtain ⟨v, hv, rfl⟩ := Option.map_eq_some_iff.mp hstart
      obtain ⟨-, named⟩ := fits.element row hrow
      obtain ⟨name, hname, known⟩ := named v hv
      rw [hname, Option.toList_some, List.singleton_append, Scene.find, known]
      exact follows

/-- So the reference to a chain is found, unless a row has the name that the chain begins with. -/
theorem find_chain {around : Surroundings} (fits : scene.Fits around element) (node : Node)
    {root : Root} {base : List String} (anchored : node.root? = some root)
    (found : around.base? root = some base)
    (free : ∀ name ∈ if node.root? = some .document then node.path.head?.toList else [],
      name ∉ scene.rows.map Prod.fst)
    {scope : Scope} (opens : node.meaning scene.setting element = .ok (.scope scope)) :
    scene.find (base ++ node.path) = some scope := by
  obtain ⟨start, hstart, follows⟩ := follow_path opens anchored
  refine find_reference fits found ?_ hstart follows
  rintro rfl first hfirst
  rw [if_pos anchored] at free
  exact free first (Option.mem_toList.mpr hfirst)

end Paths

/-! ## Tests -/

section Tests

variable {table : OperatorTable} {test : Value → Except EvalError Value} {outcome v : Value}

/-- `OR` with an answer that is not true yet. -/
theorem applyBinary_or_eq_ok {u joined : Value} (start : outcome = .boolean false ∨ outcome = .null)
    (h : table.applyBinary outcome .or u = .ok joined) :
    (u = .boolean true ∧ joined = .boolean true) ∨
      (u ≠ .boolean true ∧ (joined = .boolean false ∨ joined = .null)) := by
  rcases start with rfl | rfl <;> cases u with
  | null =>
      cases h
      exact .inr ⟨nofun, .inr rfl⟩
  | boolean b =>
      cases b with
      | true =>
          cases h
          exact .inl ⟨rfl, rfl⟩
      | false =>
          cases h
          exact .inr ⟨nofun, by simp [Truth.toValue, Truth.or]⟩
  | _ => cases h

/-- A test is true if it is for some element, and else it has an answer for each of them. -/
theorem someMatch_eq_ok {items : List Value}
    (start : outcome = .boolean false ∨ outcome = .null)
    (h : Node.someMatch table test outcome items = .ok v) :
    (v = .boolean true ∧ ∃ row ∈ items, test row = .ok (.boolean true)) ∨
      ((v = .boolean false ∨ v = .null) ∧
        ∀ row ∈ items, ∃ u, test row = .ok u ∧ u ≠ .boolean true) := by
  induction items generalizing outcome with
  | nil =>
      cases h
      exact .inr ⟨start, nofun⟩
  | cons row items ih =>
      obtain ⟨u, hu, behind⟩ := bind_eq_ok h
      obtain ⟨joined, hjoined, continued⟩ := bind_eq_ok behind
      rcases applyBinary_or_eq_ok start (mapError_eq_ok hjoined) with ⟨rfl, rfl⟩ | ⟨untrue, restart⟩
      · cases continued
        exact .inl ⟨rfl, row, List.mem_cons_self, hu⟩
      · have others : Node.someMatch table test joined items = .ok v := by
          rcases restart with rfl | rfl <;> exact continued
        rcases ih restart others with ⟨true, other, hother, holds⟩ | ⟨notTrue, answers⟩
        · exact .inl ⟨true, other, List.mem_cons_of_mem row hother, holds⟩
        · exact .inr ⟨notTrue, List.forall_mem_cons.mpr ⟨⟨u, hu, untrue⟩, answers⟩⟩

end Tests

/-! ## Operators -/

/-- The value of a condition against that of the tree: the same, or false for unknown where unknown
counts as false. -/
def Agrees (lenient : Bool) (v w : Value) : Prop :=
  w = v ∨ lenient = true ∧ v = .null ∧ w = .boolean false

theorem Agrees.eq {v w : Value} (h : Agrees false v w) : w = v :=
  h.resolve_right fun lenient => Bool.false_ne_true lenient.1

/-- A value that is known is the same. -/
theorem Agrees.eq_of_ne_null {lenient : Bool} {v w : Value} (h : Agrees lenient v w)
    (known : v ≠ .null) : w = v :=
  h.resolve_right fun unknown => known unknown.2.1

section Operators

variable {op : Operator} {l r v : Value}

/-- Besides `AND` and `OR`, operators mean what they do in the language. -/
theorem connect_of_not_joins (other : ¬(op = .and ∨ op = .or)) (l r : Value) :
    connect op (some l) (some r) = (OperatorTable.standard.applyBinary l op r).toOption := by
  cases op with
  | and => exact absurd (.inl rfl) other
  | or => exact absurd (.inr rfl) other
  | _ => rfl

/-- An operand that decides is enough. -/
theorem connect_of_decides (decided : Step.decides op l = true) (right : Option Value) :
    connect op (some l) right = some l ∧ l ≠ .null := by
  unfold Step.decides at decided
  split at decided
  · exact ⟨by cases right <;> rfl, nofun⟩
  · exact ⟨by cases right <;> rfl, nofun⟩
  · cases decided

theorem connect_toValue (joins : op = .and ∨ op = .or) (a b : Truth) :
    connect op (some a.toValue) (some b.toValue) = some (junction op a b).toValue := by
  rcases joins with rfl | rfl <;> rcases a with _ | _ | _ <;> rcases b with _ | _ | _ <;> rfl

/-- What agrees with a truth value is one. -/
theorem Agrees.truth {lenient : Bool} {a : Truth} {w : Value} (h : Agrees lenient a.toValue w) :
    ∃ a' : Truth, w = a'.toValue ∧ (a' = a ∨ lenient = true ∧ a = none ∧ a' = some false) := by
  rcases h with rfl | ⟨lenient, unknown, rfl⟩
  · exact ⟨a, rfl, .inl rfl⟩
  · refine ⟨some false, rfl, .inr ⟨lenient, ?_, rfl⟩⟩
    rcases a with _ | b
    · rfl
    · cases unknown

/-- `AND` and `OR` make nothing more of false than of unknown. -/
theorem agrees_junction {lenient : Bool} {a b a' b' : Truth}
    (left : a' = a ∨ lenient = true ∧ a = none ∧ a' = some false)
    (right : b' = b ∨ lenient = true ∧ b = none ∧ b' = some false) :
    Agrees lenient (junction op a b).toValue (junction op a' b').toValue := by
  unfold Agrees junction
  rcases left with rfl | ⟨lenient, rfl, rfl⟩ <;> rcases right with rfl | ⟨lenient, rfl, rfl⟩
  · exact .inl rfl
  -- where an operand differs, the tables of truth tell for each value of the other one
  · split <;> rcases a' with _ | _ | _ <;> first | exact .inl rfl | exact .inr ⟨lenient, rfl, rfl⟩
  · split <;> rcases b' with _ | _ | _ <;> first | exact .inl rfl | exact .inr ⟨lenient, rfl, rfl⟩
  · split <;> exact .inr ⟨lenient, rfl, rfl⟩

/-- So they agree if their operands do. -/
theorem connect_agrees {lenient : Bool} {l' r' : Value} (joins : op = .and ∨ op = .or)
    (h : OperatorTable.standard.applyBinary l op r = .ok v) (left : Agrees lenient l l')
    (right : Agrees lenient r r') :
    ∃ w, connect op (some l') (some r') = some w ∧ Agrees lenient v w := by
  obtain ⟨a, b, rfl, rfl, rfl⟩ := applyBinary_eq_ok_of_joins joins h
  obtain ⟨a', rfl, ha⟩ := left.truth
  obtain ⟨b', rfl, hb⟩ := right.truth
  exact ⟨_, connect_toValue joins a' b', agrees_junction ha hb⟩

/-- What decides is no unknown, so SQL has it as well and needs no other operand. -/
theorem connect_agrees_of_decides {lenient joined : Bool} {l' : Value}
    (decided : Step.decides op l = true) (left : Agrees joined l l') (right : Option Value) :
    ∃ w, connect op (some l') right = some w ∧ Agrees lenient l w := by
  obtain ⟨alone, notNull⟩ := connect_of_decides decided right
  rw [left.eq_of_ne_null notNull]
  exact ⟨l, alone, .inl rfl⟩

/-- `AND` and `OR` pass on whether unknown counts as false, the others ask for the same values. -/
theorem connect_agrees_of_applied {lenient : Bool} {l' r' : Value}
    (left : Agrees (lenient && (op = .and || op = .or)) l l')
    (right : Agrees (lenient && (op = .and || op = .or)) r r')
    (applied : OperatorTable.standard.applyBinary l op r = .ok v) :
    ∃ w, connect op (some l') (some r') = some w ∧ Agrees lenient v w := by
  by_cases joins : op = .and ∨ op = .or
  · have same : (lenient && (op = .and || op = .or)) = lenient := by
      rcases joins with rfl | rfl <;> exact Bool.and_true lenient
    rw [same] at left right
    exact connect_agrees joins applied left right
  · have strict : (lenient && (op = .and || op = .or)) = false := by
      rw [not_or] at joins
      simp [joins]
    rw [strict] at left right
    refine ⟨v, ?_, .inl rfl⟩
    rw [left.eq, right.eq, connect_of_not_joins joins, applied]
    rfl

end Operators

/-- A unary operator asks for more than the truth of its operand. -/
theorem applyUnary_agrees {op : Operator} {u u' v : Value} (operand : Agrees false u u')
    (applied : OperatorTable.standard.applyUnary op u = .ok v) :
    ((some u').bind fun w => (OperatorTable.standard.applyUnary op w).toOption) = some v := by
  rw [operand.eq, Option.bind_some, applied]
  rfl

theorem isTrue_eq_true_iff {value : Option Value} :
    isTrue value = true ↔ value = some (.boolean true) := by
  constructor
  · intro h
    unfold isTrue at h
    split at h
    · rfl
    · cases h
  · rintro rfl
    rfl

/-- `EXISTS` is true where the test is, and false where the test is false or unknown. -/
theorem exists_agrees {table : OperatorTable} {test : Value → Except EvalError Value}
    {condition : Value → Option Value} {items : List Value} {v : Value} {lenient : Bool}
    (rows : ∀ row ∈ items, ∀ u, test row = .ok u →
      ∃ w, condition row = some w ∧ Agrees true u w)
    (answers : Node.someMatch table test (.boolean false) items = .ok v)
    (known : lenient = false → v ≠ .null) :
    Agrees lenient v (.boolean (items.any fun row => isTrue (condition row))) := by
  rcases someMatch_eq_ok (.inl rfl) answers with ⟨rfl, row, hrow, holds⟩ | ⟨notTrue, untrue⟩
  · -- the element that satisfies the test is no unknown, so SQL finds it as well
    obtain ⟨w, value, agrees⟩ := rows row hrow _ holds
    have found : (items.any fun row => isTrue (condition row)) = true := by
      refine List.any_eq_true.mpr ⟨row, hrow, isTrue_eq_true_iff.mpr ?_⟩
      rw [value, agrees.eq_of_ne_null nofun]
    exact .inl (congrArg Value.boolean found)
  · -- SQL makes nothing true that is false or unknown
    have missing : (items.any fun row => isTrue (condition row)) = false := by
      refine List.any_eq_false.mpr fun row hrow holds => ?_
      obtain ⟨u, hu, other⟩ := untrue row hrow
      obtain ⟨w, value, agrees⟩ := rows row hrow u hu
      rw [isTrue_eq_true_iff, value] at holds
      cases holds
      rcases agrees with rfl | ⟨-, -, ⟨⟩⟩
      exact other rfl
    rw [missing]
    rcases notTrue with rfl | rfl
    · exact .inl rfl
    · cases lenient with
      | true => exact .inr ⟨rfl, rfl, rfl⟩
      | false => exact absurd rfl (known rfl)

/-! ## Trees -/

/-- The scene fits inside of a test as well. -/
theorem Scene.Fits.inRow {scene : Scene} {around : Surroundings} {element : Option Value}
    (fits : scene.Fits around element) (rowName : String) (row : Value) :
    (scene.inRow rowName row).Fits (around.inside ⟨some rowName, none⟩) (some row) := by
  refine ⟨fits.document, ?_⟩
  rintro inner ⟨⟩
  refine ⟨rfl, ?_⟩
  rintro v ⟨⟩
  exact ⟨rowName, rfl, List.lookup_cons_self⟩

theorem elements_of_elementsOf {scene : Scene} {names : List String} {scope : Scope}
    {parent : Node} {items : List Value} (found : scene.find names = some scope)
    (h : parent.elementsOf scene.setting scope = .ok items) : scene.elements names = some items := by
  obtain ⟨answer, hanswer, behind⟩ := bind_eq_ok h
  rw [Scene.elements, found, Option.bind_eq_bind, Option.bind_some, hanswer]
  -- an array answers with its elements, NULL with nothing
  cases answer with
  | none =>
      cases scope with
      | document => cases behind
      | nested v =>
          cases v with
          | null =>
              cases behind
              rfl
          | _ => cases behind
  | some found =>
      cases found with
      | array items =>
          cases behind
          rfl
      | _ => cases behind

/-- No table is known of the rows that own collections. -/
theorem Scene.Fits.owner {scene : Scene} {around : Surroundings} {element : Option Value}
    (fits : scene.Fits around element) {parent : Node} {owner : Row}
    (owned : around.owner? parent = some owner) : owner.table = none := by
  unfold Surroundings.owner? at owned
  split at owned
  · exact (fits.element owner owned).1
  · cases owned
    exact fits.document

/-- The condition of a tree has the value of the tree. -/
theorem Reflects.value {parameters : List Value} {around : Surroundings} {tree : Node} {p : Phrase}
    (h : Reflects parameters around tree p) {scene : Scene} {element : Option Value}
    (passed : scene.parameters = parameters) (fits : scene.Fits around element)
    (outside : ∀ name ∈ tree.documentNames, name ∉ scene.rows.map Prod.fst)
    (inside : ∀ name ∈ tree.documentNames, name ∉ p.rowNames)
    {lenient : Bool} (known : tree.TestsAreKnown scene.setting lenient element) {v : Value}
    (ok : tree.meaning scene.setting element = .ok (.value v)) :
    ∃ w, p.value scene = some w ∧ Agrees lenient v w := by
  -- the scene is that at the place of the tree, which has one more row inside of each test
  induction h generalizing scene element lenient v with
  | literal found =>
      cases ok
      refine ⟨_, ?_, .inl rfl⟩
      rw [Phrase.value, passed]
      exact found
  | @field around scope name root base anchored found =>
      have leads : scene.find (base ++ (scope.path ++ [name])) = some (.nested v) :=
        find_chain fits (.object scope name) anchored found outside
          (Node.meaning_object_of_field ok)
      refine ⟨v, ?_, .inl rfl⟩
      rw [Phrase.value, Scene.column, leads]
  | @elements around scope predicate name rowName owner root base p owned stored anchored found test
      ih =>
      obtain ⟨array, items, _, opens, hitems, answers, ⟨⟩⟩ := Node.meaning_collection_eq_ok ok
      have leads : scene.find (base ++ (scope.path ++ [name])) = some array :=
        find_chain fits (.object scope name) anchored found
          (List.forall_mem_append.mp outside).1 opens
      have ranges : scene.elements (base ++ (scope.path ++ [name])) = some items :=
        elements_of_elementsOf leads hitems
      -- the predicate has the same value for each element, up to unknown for false
      have rows (row : Value) (hrow : row ∈ items) (u : Value)
          (hu : predicate.asOperand (predicate.meaning scene.setting (some row)) = .ok u) :
          ∃ w, p.value (scene.inRow rowName row) = some w ∧ Agrees true u w := by
        have ranged : Node.itemsOf scene.setting (.object scope name) element = .ok items := by
          rw [Node.itemsOf, opens]
          exact hitems
        have passed : (scene.inRow rowName row).parameters = parameters := passed
        refine ih passed (fits.inRow rowName row) ?_ ?_ (known.2 items ranged row hrow)
          (Node.asOperand_eq_ok hu)
        · intro first hfirst shadowed
          have mem : first ∈ (Node.collection (.object scope name) predicate).documentNames :=
            List.mem_append_right _ hfirst
          rcases List.mem_cons.mp shadowed with rfl | outer
          · exact inside _ mem List.mem_cons_self
          · exact outside first mem outer
        · intro first hfirst shadowed
          exact inside first (List.mem_append_right _ hfirst) (List.mem_cons_of_mem _ shadowed)
      rw [Phrase.value, ranges, Option.map_some]
      refine ⟨_, rfl, exists_agrees rows answers ?_⟩
      rintro rfl rfl
      exact known.1 rfl ok
  | rows owned stored test joined ih =>
      -- a table of its own takes a schema
      rw [fits.owner owned] at stored
      cases stored
  | prefixed inner ih =>
      obtain ⟨u, _, hu, applied, ⟨⟩⟩ := Node.meaning_prefixed_eq_ok ok
      obtain ⟨u', value, agrees⟩ := ih passed fits outside inside known hu
      refine ⟨v, ?_, .inl rfl⟩
      rw [Phrase.value, value]
      exact applyUnary_agrees agrees applied
  | @infixed around left right op grouping p q first second ihl ihr =>
      obtain ⟨knownLeft, knownRight⟩ := known
      obtain ⟨outsideLeft, outsideRight⟩ := List.forall_mem_append.mp outside
      obtain ⟨insideLeft, insideRight⟩ := List.forall_mem_append.mp inside
      obtain ⟨l, hl, outcome⟩ := Node.meaning_infixed_eq_ok ok
      obtain ⟨l', valueLeft, agreesLeft⟩ := ihl passed fits outsideLeft
        (fun name hname shadowed => insideLeft name hname (List.mem_append_left _ shadowed))
        knownLeft hl
      rw [Phrase.value, valueLeft]
      rcases outcome with ⟨decided, ⟨⟩⟩ | ⟨-, r, _, hr, applied, ⟨⟩⟩
      · exact connect_agrees_of_decides decided agreesLeft (q.value scene)
      · obtain ⟨r', valueRight, agreesRight⟩ := ihr passed fits outsideRight
          (fun name hname shadowed => insideRight name hname (List.mem_append_right _ shadowed))
          knownRight hr
        rw [valueRight]
        exact connect_agrees_of_applied agreesLeft agreesRight applied
  | postfixed inner ih =>
      obtain ⟨u, _, hu, applied, ⟨⟩⟩ := Node.meaning_postfixed_eq_ok ok
      obtain ⟨u', value, agrees⟩ := ih passed fits outside inside known hu
      refine ⟨v, ?_, .inl rfl⟩
      rw [Phrase.value, value]
      exact applyUnary_agrees agrees applied

/-- The SQL of a tree is true of a document exactly where the tree is decided to be true, provided
that no unknown answer of a test is used for more than its truth, and that no reference to the
document begins with the name of a row. What the condition says is what its text is read as. -/
theorem isTrue_iff_decide {tree : Node} {condition : Condition} {out : Output}
    (h : (compile .unknown tree).run ⟨[], 0⟩ = .ok (condition, out)) :
    ofNode .unknown tree = .ok ⟨condition.render, out.parameters⟩ ∧
      (tree.IsBuilt → (∀ name ∈ tree.names, ¬IsKeyword name) →
        read condition.render = some condition.phrase) ∧
      ∀ context b, (∀ name ∈ tree.documentNames, name ∉ condition.phrase.rowNames) →
        tree.TestsAreKnown ⟨.standard, context⟩ true none → tree.decide context = .ok b →
        (condition.phrase.value ⟨context, [], out.parameters⟩ = some (.boolean true) ↔ b = true) := by
  have compiles := compiles_of_compile h
  refine ⟨?_, ?_, ?_⟩
  · rw [ofNode, h]
    rfl
  · intro built words
    have free : Surroundings.unknown.IsFree := Surroundings.IsOutermost.unknown.isFree nofun
    exact read_render (compiles.isReadable free built words)
  · intro context b unshadowed known decided
    rw [Node.decide, Node.decideWith_eq] at decided
    obtain ⟨m, hm, truth⟩ := bind_eq_ok decided
    let scene : Scene := ⟨context, [], out.parameters⟩
    have fits : scene.Fits .unknown none := ⟨rfl, nofun⟩
    have reflects := compiles.reflects List.prefix_rfl
    have agree {v : Value} (hv : m = .value v) :
        ∃ w, condition.phrase.value scene = some w ∧ Agrees true v w := by
      subst hv
      exact reflects.value rfl fits (fun _ _ => List.not_mem_nil) unshadowed known hm
    -- a whole condition is under nothing that would tell unknown from false
    rcases Meaning.truth_eq_ok truth with hv | ⟨hv, rfl⟩
    · obtain ⟨w, value, agrees⟩ := agree hv
      rw [value, agrees.eq_of_ne_null nofun]
      simp
    · obtain ⟨w, value, agrees⟩ := agree hv
      rw [value]
      rcases agrees with rfl | ⟨-, -, rfl⟩ <;> simp

/-- `$.Items[*][?@.x == 1 || @.y == null] && !($.open == false)` -/
def joinedTree : Node :=
  .and
    (.collection (.object .globalScope "Items")
      (.between (.between (.field .item "x") .equal (.literal (.integer 1))) .or
        (.isNull (.field .item "y"))))
    [.not (.between (.field .globalScope "open") .equal (.literal (.boolean false)))]

/-- Two items, of which the first has an unknown `x`. -/
def joinedDocument : Context :=
  .ofEntries [
    ("Items", .array [.object [("x", .null), ("y", .integer 0)],
      .object [("x", .integer 1), ("y", .integer 2)]]),
    ("open", .boolean true)]

theorem isTrue_iff_decide_joinedTree : ∃ condition out,
    (compile .unknown joinedTree).run ⟨[], 0⟩ = .ok (condition, out) ∧
      joinedTree.decide joinedDocument = .ok true ∧
      condition.phrase.value ⟨joinedDocument, [], out.parameters⟩ = some (.boolean true) := by
  have decided : joinedTree.decide joinedDocument = .ok true := rfl
  have unshadowed : ∀ name ∈ joinedTree.documentNames, name ∉ ["item_1"] := by decide
  have joined : joinedTree.TestsAreJoined true := by
    simp [joinedTree, Node.and, Node.between, Node.not, Node.before, Node.isNull, Node.after,
      Node.literal, Node.TestsAreJoined]
  refine ⟨_, _, rfl, decided, ?_⟩
  exact ((isTrue_iff_decide rfl).2.2 joinedDocument true unshadowed
    (joined.testsAreKnown _ none) decided).mpr rfl

/-- `$.Items[*][?@.x == $.item_1.x]` -/
def shadowedTree : Node :=
  .collection (.object .globalScope "Items")
    (.between (.field .item "x") .equal (.field (.object .globalScope "item_1") "x"))

/-- One item, and an `item_1` beside it that has another `x`. -/
def shadowingDocument : Context :=
  .ofEntries [
    ("Items", .array [.object [("x", .integer 1)]]),
    ("item_1", .object [("x", .integer 2)])]

/-- Where the name of a row is that of an entry, SQL compares the row with itself. -/
example : ∃ condition out,
    (compile .unknown shadowedTree).run ⟨[], 0⟩ = .ok (condition, out) ∧
      "item_1" ∈ shadowedTree.documentNames ∧ "item_1" ∈ condition.phrase.rowNames ∧
      shadowedTree.decide shadowingDocument = .ok false ∧
      condition.phrase.value ⟨shadowingDocument, [], out.parameters⟩ = some (.boolean true) :=
  ⟨_, _, rfl, by decide, by decide, rfl, rfl⟩

/-- `!$.Items[*][?@.x == 1]` -/
def negatedTree : Node :=
  .not (.collection (.object .globalScope "Items")
    (.between (.field .item "x") .equal (.literal (.integer 1))))

/-- One item with an unknown `x`. -/
def unknownDocument : Context :=
  .ofEntries [("Items", .array [.object [("x", .null)]])]

/-- A negated test is where the two part: unknown stays unknown when it is negated, but `EXISTS` is
false by then, and its negation true. -/
theorem negated_test_differs : ∃ condition out,
    (compile .unknown negatedTree).run ⟨[], 0⟩ = .ok (condition, out) ∧
      negatedTree.IsWellScoped ∧ negatedTree.decide unknownDocument = .ok false ∧
      condition.phrase.value ⟨unknownDocument, [], out.parameters⟩ = some (.boolean true) :=
  ⟨_, _, rfl, ⟨trivial, trivial, trivial⟩, rfl, rfl⟩

end Sql

end DataFilter
