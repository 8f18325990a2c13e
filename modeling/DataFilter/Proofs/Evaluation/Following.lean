import DataFilter.Proofs.Evaluation.Quantifiers
import DataFilter.Proofs.Sql.Compiling
import DataFilter.Proofs.Sql.Lexing

/-!
# Fields follow their paths

A field is found by the names on its path: the first is read in the document or in the element under
test, and each further one in the value that the one before it has led to. A session does that from
the last name inwards, with a scope opened for every name. What it comes to is said here without
scopes, as a walk along the list of names (`Leads`), and so is what it fails with (`Stops`): the
names up to the first one that nothing answers, or the failure of the context itself. The column
that is compiled from the field has the same names.
-/

namespace DataFilter

/-! ## Reading names one after the other -/

/-- Reading the names one after the other, each in what the one before it has led to, leads from one
scope to another. -/
inductive Leads (setting : Setting) : Scope → List String → Scope → Prop where
  | stay (scope : Scope) : Leads setting scope [] scope
  | read {scope last : Scope} {name : String} {names : List String} {v : Value}
      (answers : scope.get setting name = .ok (some v))
      (behind : Leads setting (.nested v) names last) : Leads setting scope (name :: names) last

/-- The names behind a root, as messages show them: `$.user.age`. -/
def Root.pathText (root : Root) (names : List String) : String :=
  root.symbol ++ String.join (names.map ("." ++ ·))

/-- Why reading the names one after the other comes to nothing. -/
inductive Stops (setting : Setting) (root : Root) (start : Scope) (names : List String) :
    EvalError → Prop where
  /-- One of the names is answered with nothing, while those in front of it lead on. -/
  | missing {front back : List String} {name : String} {reached : Scope}
      (split : names = front ++ name :: back) (leads : Leads setting start front reached)
      (nothing : reached.get setting name = .ok none) :
      Stops setting root start names (.keyNotFound (root.pathText (front ++ [name])))
  /-- The context fails at the first name. Values never do. -/
  | failing {name : String} {behind : List String} {error : EvalError}
      (first : names = name :: behind) (document : start = .document)
      (fails : setting.context.get name = .error error) : Stops setting root start names error

theorem Root.pathText_concat (root : Root) (names : List String) (name : String) :
    root.pathText (names ++ [name]) = root.pathText names ++ "." ++ name := by
  simp [pathText, String.join_append, String.append_assoc]

section Walks

variable {setting : Setting} {start reached last : Scope} {names : List String} {name : String}

theorem leads_nil_iff : Leads setting start [] last ↔ last = start := by
  constructor
  · rintro ⟨⟩
    rfl
  · rintro rfl
    exact .stay last

/-- The last name is read in what the others lead to. -/
theorem leads_concat_iff : Leads setting start (names ++ [name]) last ↔
    ∃ reached v, Leads setting start names reached ∧
      reached.get setting name = .ok (some v) ∧ last = .nested v := by
  induction names generalizing start with
  | nil =>
      constructor
      · rintro (_ | ⟨answers, behind⟩)
        exact ⟨start, _, .stay start, answers, leads_nil_iff.mp behind⟩
      · rintro ⟨reached, v, leads, answers, rfl⟩
        obtain rfl := leads_nil_iff.mp leads
        exact .read answers (.stay _)
  | cons first names ih =>
      constructor
      · rintro (_ | ⟨answers, behind⟩)
        obtain ⟨reached, v, leads, found, rfl⟩ := ih.mp behind
        exact ⟨reached, v, .read answers leads, found, rfl⟩
      · rintro ⟨reached, v, _ | ⟨answers, behind⟩, found, rfl⟩
        exact .read answers (ih.mpr ⟨reached, v, behind, found, rfl⟩)

/-- Reading never leads back to the document. -/
theorem Leads.eq_nil_of_document (leads : Leads setting start names .document) :
    names = [] ∧ start = .document := by
  rcases List.eq_nil_or_concat names with rfl | ⟨front, name, rfl⟩
  · exact ⟨rfl, (leads_nil_iff.mp leads).symm⟩
  · rw [List.concat_eq_append] at leads
    obtain ⟨_, _, _, _, ⟨⟩⟩ := leads_concat_iff.mp leads

/-- Only the context fails to answer. -/
theorem Scope.get_eq_error_iff {error : EvalError} :
    reached.get setting name = .error error ↔
      reached = .document ∧ setting.context.get name = .error error := by
  cases reached with
  | nested v => simp [Scope.get]
  | document => simp [Scope.get]

/-- Reading stops at one of the names in front, or else at the last one. -/
theorem stops_concat_iff {root : Root} {error : EvalError} :
    Stops setting root start (names ++ [name]) error ↔
      Stops setting root start names error ∨
      ∃ reached, Leads setting start names reached ∧
        (reached.get setting name = .ok none ∧
            error = .keyNotFound (root.pathText (names ++ [name])) ∨
          reached.get setting name = .error error) := by
  constructor
  · rintro (⟨split, leads, nothing⟩ | ⟨first, rfl, fails⟩)
    · rename_i front back other reached
      rcases List.eq_nil_or_concat back with rfl | ⟨back, last, rfl⟩
      · obtain ⟨rfl, ⟨⟩⟩ := List.append_inj' split rfl
        exact .inr ⟨reached, leads, .inl ⟨nothing, rfl⟩⟩
      · rw [List.concat_eq_append, ← List.cons_append, ← List.append_assoc] at split
        exact .inl (.missing (List.append_inj_left' split rfl) leads nothing)
    · cases names with
      | nil =>
          obtain ⟨rfl, -⟩ := List.cons.inj first
          refine .inr ⟨.document, .stay _, .inr ?_⟩
          exact Scope.get_eq_error_iff.mpr ⟨rfl, fails⟩
      | cons other names =>
          obtain ⟨rfl, -⟩ := List.cons.inj first
          exact .inl (.failing rfl rfl fails)
  · rintro ((⟨rfl, leads, nothing⟩ | ⟨rfl, rfl, fails⟩) |
      ⟨reached, leads, ⟨nothing, rfl⟩ | refused⟩)
    · rw [List.append_assoc, List.cons_append]
      exact .missing rfl leads nothing
    · exact .failing rfl rfl fails
    · exact .missing rfl leads nothing
    · obtain ⟨rfl, fails⟩ := Scope.get_eq_error_iff.mp refused
      obtain ⟨rfl, rfl⟩ := leads.eq_nil_of_document
      exact .failing rfl rfl fails

end Walks

/-! ## What a chain comes to -/

namespace Node

section Chains

variable {setting : Setting} {node : Node} {element : Option Value} {name : String}

/-- A name is read in a scope, or there is none to read in, or the scope does not answer. -/
theorem readName_eq_error_iff {meaning : Except EvalError Meaning} {error : EvalError} :
    node.readName setting name meaning = .error error ↔
      meaning = .error error ∨
      (∃ v, meaning = .ok (.value v) ∧ error = .itemOutsideCollection) ∨
      ∃ scope, meaning = .ok (.scope scope) ∧
        (scope.get setting name = .ok none ∧ error = .keyNotFound (node.render ++ "." ++ name) ∨
          scope.get setting name = .error error) := by
  cases meaning with
  | error e =>
      show Except.error e = _ ↔ _
      simp
  | ok m =>
      cases m with
      | value v =>
          show Except.error EvalError.itemOutsideCollection = _ ↔ _
          simp [eq_comm]
      | scope scope =>
          show (scope.get setting name >>= _) = _ ↔ _
          cases answered : scope.get setting name with
          | error e =>
              show Except.error e = _ ↔ _
              simp [answered]
          | ok answer =>
              cases answer with
              | none =>
                  show Except.error (EvalError.keyNotFound (node.render ++ "." ++ name)) = _ ↔ _
                  simp [answered, eq_comm]
              | some v =>
                  show Except.ok v = _ ↔ _
                  simp [answered]

theorem readName_eq_ok_iff {meaning : Except EvalError Meaning} {v : Value} :
    node.readName setting name meaning = .ok v ↔
      ∃ scope, meaning = .ok (.scope scope) ∧ scope.get setting name = .ok (some v) := by
  constructor
  · exact readName_eq_ok
  · rintro ⟨scope, rfl, answers⟩
    show (scope.get setting name >>= _) = _
    rw [answers]
    rfl

/-- A chain is written as its root and its path. -/
theorem IsChain.render_eq (chain : node.IsChain) {root : Root} (anchored : node.root? = some root) :
    node.render = root.pathText node.path := by
  induction node with
  | globalScope =>
      cases anchored
      rfl
  | item =>
      cases anchored
      rfl
  | object parent name ih =>
      rw [path, Root.pathText_concat, ← ih chain anchored]
      rfl
  | _ => cases chain

variable {root : Root} {start : Scope}

/-- The chain means the scope that its path leads to, and fails where reading the path stops. -/
structure IsWalked (setting : Setting) (element : Option Value) (node : Node) (root : Root)
    (start : Scope) : Prop where
  leads : ∀ reached, node.meaning setting element = .ok (.scope reached) ↔
    Leads setting start node.path reached
  stops : ∀ error, node.meaning setting element = .error error ↔
    Stops setting root start node.path error

section Names

variable (chain : node.IsChain) (anchored : node.root? = some root)
  (walked : node.IsWalked setting element root start)
include walked

theorem IsWalked.readName_eq_ok_iff {v : Value} :
    node.readName setting name (node.meaning setting element) = .ok v ↔
      Leads setting start (node.path ++ [name]) (.nested v) := by
  rw [Node.readName_eq_ok_iff, leads_concat_iff]
  constructor
  · rintro ⟨reached, meant, answers⟩
    exact ⟨reached, v, (walked.leads reached).mp meant, answers, rfl⟩
  · rintro ⟨reached, _, leads, answers, ⟨⟩⟩
    exact ⟨reached, (walked.leads reached).mpr leads, answers⟩

include chain anchored

theorem IsWalked.readName_eq_error_iff {error : EvalError} :
    node.readName setting name (node.meaning setting element) = .error error ↔
      Stops setting root start (node.path ++ [name]) error := by
  rw [Node.readName_eq_error_iff, stops_concat_iff, Root.pathText_concat,
    ← chain.render_eq anchored, walked.stops]
  -- a chain means no value
  have scopes (v : Value) : node.meaning setting element ≠ .ok (.value v) := by
    intro meant
    obtain ⟨scope, ⟨⟩⟩ := chain.meaning_isScope meant
  constructor
  · rintro (stopped | ⟨v, meant, -⟩ | ⟨reached, meant, refused⟩)
    · exact .inl stopped
    · exact absurd meant (scopes v)
    · exact .inr ⟨reached, (walked.leads reached).mp meant, refused⟩
  · rintro (stopped | ⟨reached, leads, refused⟩)
    · exact .inl stopped
    · exact .inr (.inr ⟨reached, (walked.leads reached).mpr leads, refused⟩)

end Names

/-- A root leads to itself by no names. -/
theorem isWalked_root (meant : node.meaning setting element = .ok (.scope start))
    (nameless : node.path = []) : node.IsWalked setting element root start := by
  refine ⟨?_, ?_⟩
  · intro reached
    rw [meant, nameless, leads_nil_iff]
    simp [eq_comm]
  · intro error
    rw [meant, nameless]
    refine ⟨nofun, ?_⟩
    rintro (⟨split, -, -⟩ | ⟨⟨⟩, -, -⟩)
    simp at split

/-- A scope leads on to what the next name is read as. -/
theorem IsWalked.object (chain : node.IsChain) (anchored : node.root? = some root)
    (walked : node.IsWalked setting element root start) (name : String) :
    (object node name).IsWalked setting element root start := by
  have opens : (Node.object node name).meaning setting element = (do
      let v ← node.readName setting name (node.meaning setting element)
      return .scope (.nested v)) := rfl
  refine ⟨?_, ?_⟩
  · intro reached
    rw [opens, path, leads_concat_iff]
    constructor
    · intro meant
      obtain ⟨v, read, ⟨⟩⟩ := bind_eq_ok meant
      exact leads_concat_iff.mp (walked.readName_eq_ok_iff.mp read)
    · rintro ⟨middle, v, leads, answers, rfl⟩
      rw [walked.readName_eq_ok_iff.mpr (leads_concat_iff.mpr ⟨middle, v, leads, answers, rfl⟩)]
      rfl
  · intro error
    rw [opens, path, ← failure?_eq_some_iff, failure?_map, failure?_eq_some_iff]
    exact walked.readName_eq_error_iff chain anchored

/-- A chain is walked along its path, from its root to its last name. -/
theorem IsChain.isWalked (chain : node.IsChain) (anchored : node.root? = some root)
    (begins : root.scope? element = some start) : node.IsWalked setting element root start := by
  -- the last name of the chain is the last name of the path
  induction node with
  | globalScope =>
      cases anchored
      cases begins
      exact isWalked_root rfl rfl
  | item =>
      cases anchored
      obtain ⟨v, rfl, rfl⟩ := Option.map_eq_some_iff.mp begins
      exact isWalked_root rfl rfl
  | object parent name ih =>
      have outer : parent.IsChain := chain
      exact (ih outer anchored).object outer anchored name
  | _ => cases chain

/-- The value of a field is read in the scope that its chain means. -/
theorem valueAt_field (scope : Node) (name : String) :
    (field scope name).valueAt setting element =
      scope.readName setting name (scope.meaning setting element) :=
  toValue_value (field scope name) _

end Chains

end Node

/-! ## The column of a field -/

namespace Sql

/-- A step goes on from what the one before it has come to. -/
theorem Step.bind_of_ok {α β : Type} {x : Step α} {f : α → Step β} {out middle : Output} {a : α}
    (h : x out = .ok (a, middle)) : (x >>= f) out = f a middle := by
  show Except.bind (x out) (fun r => f r.1 r.2) = _
  rw [h]
  rfl

/-- Plain names are let through. -/
theorem forM_checkIdentifier_of_valid {names : List String}
    (valid : ∀ name ∈ names, isIdentifier name = true) (out : Output) :
    names.forM checkIdentifier out = .ok ((), out) := by
  induction names with
  | nil => rfl
  | cons name names ih =>
      obtain ⟨first, others⟩ := List.forall_mem_cons.mp valid
      have checked : checkIdentifier name out = .ok ((), out) := by
        rw [checkIdentifier, if_pos first]
        rfl
      exact (Step.bind_of_ok checked).trans (ih others)

theorem Surroundings.base_of_root? {around : Surroundings} {scope : Node} {root : Root}
    {base : List String} (anchored : scope.root? = some root)
    (found : around.base? root = some base) (out : Output) :
    around.base scope out = .ok (base, out) := by
  unfold Surroundings.base
  rw [anchored]
  cases root with
  | document =>
      cases found
      rfl
  | element =>
      obtain ⟨row, inside, rfl⟩ := Option.map_eq_some_iff.mp found
      rw [inside]
      rfl

/-- A field compiles where all names of its path are plain and there is a row for its root, and it
is the column of that row by its path. -/
theorem compile_field_eq_ok_iff {around : Surroundings} {scope : Node} {root : Root}
    (anchored : scope.root? = some root) {name : String} {out after : Output}
    {condition : Condition} :
    compile around (.field scope name) out = .ok (condition, after) ↔
      ∃ base, around.base? root = some base ∧
        (∀ part ∈ (Node.field scope name).path, isIdentifier part = true) ∧
        condition = .column (base ++ (Node.field scope name).path) ∧ after = out := by
  constructor
  · intro h
    obtain ⟨root', base, anchored', found, valid, rfl, rfl⟩ := compile_field_eq_ok h
    obtain rfl : root' = root := Option.some.inj (anchored'.symm.trans anchored)
    exact ⟨base, found, valid, rfl, rfl⟩
  · rintro ⟨base, found, valid, rfl, rfl⟩
    have begun := Surroundings.base_of_root? anchored found after
    have checked := forM_checkIdentifier_of_valid valid after
    have referred : around.reference scope (some name) after =
        .ok (base ++ (Node.field scope name).path, after) :=
      (Step.bind_of_ok begun).trans (Step.bind_of_ok checked)
    exact Step.bind_of_ok referred

/-- What stands in front of the names behind a root: the name of the row under test and a dot, or
nothing. -/
def Surroundings.qualifier (around : Surroundings) : Root → String
  | .document => ""
  | .element => ((around.element.bind (·.name)).map (· ++ ".")).getD ""

theorem dotted_base {around : Surroundings} {root : Root} {base names : List String}
    (found : around.base? root = some base) (nonempty : names ≠ []) :
    dotted (base ++ names) = around.qualifier root ++ dotted names := by
  cases root with
  | document =>
      cases found
      exact (String.empty_append).symm
  | element =>
      obtain ⟨⟨rowName, table⟩, inside, rfl⟩ := Option.map_eq_some_iff.mp found
      rw [Surroundings.qualifier, inside]
      cases rowName with
      | none => exact (String.empty_append).symm
      | some rowName =>
          apply String.toList_inj.mp
          show (dotted (rowName :: names)).toList = ((rowName ++ ".") ++ dotted names).toList
          rw [toList_dotted_cons rowName nonempty]
          simp

end Sql

/-! ## Fields -/

/-- A field is what its path leads to. Whatever the context, its value is the one that is read by
the names of the path in turn, from the document or from the element under test. It fails if one of
them is answered with nothing, and the message shows the path up to there, or if the context fails,
with the failure of the context. And where all names of the path are plain, and only there, the
field compiles to a column, which is called by the same names. -/
theorem Node.field_follows_path {scope : Node} (chain : scope.IsChain) {root : Root}
    (anchored : scope.root? = some root) (name : String) (setting : Setting) {s : Session}
    {start : Scope} (begins : root.scope? s.items.head? = some start) :
    (∀ v, (field scope name).valueIn setting s = .ok v ↔
      Leads setting start (field scope name).path (.nested v)) ∧
    (∀ error, (field scope name).valueIn setting s = .error error ↔
      Stops setting root start (field scope name).path error) ∧
    ∀ around out,
      ((∃ result, Sql.compile around (field scope name) out = .ok result) ↔
        (around.base? root).isSome = true ∧
          ∀ part ∈ (field scope name).path, Sql.isIdentifier part = true) ∧
      ∀ condition after, Sql.compile around (field scope name) out = .ok (condition, after) →
        after = out ∧ ∀ place,
          condition.renderIn place = around.qualifier root ++ (field scope name).dottedPath := by
  have walked : scope.IsWalked setting s.items.head? root start :=
    chain.isWalked anchored begins
  have well : (field scope name).IsWellScoped := chain
  have value : (field scope name).valueIn setting s =
      scope.readName setting name (scope.meaning setting s.items.head?) :=
    (valueIn_eq (.inr well)).trans (valueAt_field scope name)
  refine ⟨?_, ?_, ?_⟩
  · intro v
    rw [value]
    exact walked.readName_eq_ok_iff
  · intro error
    rw [value]
    exact walked.readName_eq_error_iff chain anchored
  · intro around out
    refine ⟨?_, ?_⟩
    · constructor
      · rintro ⟨⟨condition, after⟩, compiled⟩
        obtain ⟨base, found, valid, -⟩ := (Sql.compile_field_eq_ok_iff anchored).mp compiled
        exact ⟨Option.isSome_of_eq_some found, valid⟩
      · rintro ⟨present, valid⟩
        obtain ⟨base, found⟩ := Option.isSome_iff_exists.mp present
        exact ⟨_, (Sql.compile_field_eq_ok_iff anchored).mpr ⟨base, found, valid, rfl, rfl⟩⟩
    · intro condition after compiled
      obtain ⟨base, found, -, rfl, rfl⟩ := (Sql.compile_field_eq_ok_iff anchored).mp compiled
      refine ⟨rfl, fun place => ?_⟩
      exact Sql.dotted_base found (by simp [path])

/-- A context that knows a user, and fails to say what is on the list. -/
def userContext : Context :=
  (Context.ofEntries [("user", .object [("age", .integer 30), ("name", .null)])]).failing
    [("list", "offline")]

/-- `$.user` -/
def userScope : Node := .object .globalScope "user"

/-- The user has an age. There is no name in what is unknown, and no list to take the length of. In
a test on other users the age is that of the one under test. In SQL it is a column of the row. -/
theorem Node.field_follows_path_user :
    (field userScope "age").valueIn ⟨.standard, userContext⟩ .fresh = .ok (.integer 30) ∧
      (field (object userScope "name") "first").valueIn ⟨.standard, userContext⟩ .fresh =
        .error (.keyNotFound "$.user.name.first") ∧
      (field (object .globalScope "list") "length").valueIn ⟨.standard, userContext⟩ .fresh =
        .error (.lookup ⟨"list", "offline"⟩) ∧
      (field .item "age").valueIn ⟨.standard, userContext⟩
        (Session.fresh.within (.object [("age", .integer 7)])) = .ok (.integer 7) ∧
      (∃ result, Sql.compile .unknown (field userScope "age") ⟨[], 0⟩ = .ok result) ∧
      ∀ condition after, Sql.compile .unknown (field userScope "age") ⟨[], 0⟩ =
        .ok (condition, after) → condition.render = "user.age" := by
  have user : Scope.document.get ⟨.standard, userContext⟩ "user" =
      .ok (some (.object [("age", .integer 30), ("name", .null)])) := rfl
  have chain : userScope.IsChain := trivial
  have named : (object userScope "name").IsChain := trivial
  have listed : (object .globalScope "list").IsChain := trivial
  have element : item.IsChain := trivial
  obtain ⟨age, -, column⟩ :=
    field_follows_path chain rfl "age" ⟨.standard, userContext⟩ (s := .fresh) rfl
  obtain ⟨-, unnamed, -⟩ :=
    field_follows_path named rfl "first" ⟨.standard, userContext⟩ (s := .fresh) rfl
  obtain ⟨-, unlisted, -⟩ :=
    field_follows_path listed rfl "length" ⟨.standard, userContext⟩ (s := .fresh) rfl
  obtain ⟨tested, -, -⟩ := field_follows_path element rfl "age" ⟨.standard, userContext⟩
    (s := Session.fresh.within (.object [("age", .integer 7)])) rfl
  obtain ⟨compiles, text⟩ := column .unknown ⟨[], 0⟩
  have split : (field (object userScope "name") "first").path = ["user", "name"] ++ ["first"] := rfl
  refine ⟨(age _).mpr ?_, (unnamed _).mpr ?_, (unlisted _).mpr ?_, (tested _).mpr ?_,
    compiles.mpr ⟨rfl, by decide +kernel⟩, ?_⟩
  · exact .read user (.read rfl (.stay _))
  · exact .missing split (.read user (.read rfl (.stay _))) rfl
  · exact .failing rfl rfl rfl
  · exact .read rfl (.stay _)
  · intro condition after compiled
    exact (text condition after compiled).2 .top

end DataFilter
