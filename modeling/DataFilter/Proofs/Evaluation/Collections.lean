import DataFilter.Proofs.Evaluation.Documents
import DataFilter.Proofs.Evaluation.Following

/-!
# What collection tests range over

A collection test asks the scope at the end of its path for the elements, by the name `*`. Arrays
answer it, and other values do not, with one exception: names are names of members too, and an
object whose member `*` is an array answers with that. So a document can make one of its objects act
as a collection. Apart from it, only arrays are collections, NULL below a name or under test has no
elements, and any other value is refused under the name of its path.
-/

namespace DataFilter

/-! ## Elements -/

/-- The elements that a value answers with, if it does. -/
def Value.elements? (v : Value) : Option (List Value) :=
  match v.get? elementsName with
  | some (.array items) => some items
  | _ => none

/-- Arrays have elements, and objects with an array under the name `*`. -/
theorem Value.elements?_eq_some_iff {v : Value} {items : List Value} :
    v.elements? = some items ↔
      v = .array items ∨
        ∃ entries, v = .object entries ∧
          Entries.get? entries elementsName = some (.array items) := by
  have answers : v.elements? = some items ↔ v.get? elementsName = some (.array items) := by
    unfold elements?
    split
    · simp [*]
    · rename_i other
      exact ⟨nofun, fun answered => absurd answered (other items)⟩
  rw [answers]
  cases v with
  | array own => simp [get?]
  | object entries => simp [get?]
  | _ => simp [get?]

/-- What a scope holds in a document: the whole of it, or the value that was found. -/
def Scope.content (whole : Json) : Scope → Value
  | document => whole.toValue
  | nested v => v

section Documents

variable {whole : Json} {table : OperatorTable} {reached : Scope}

/-- In a document, what a scope answers is what its value answers. -/
theorem Scope.get_ofJson (name : String) :
    reached.get ⟨table, .ofJson whole⟩ name = .ok ((reached.content whole).get? name) := by
  cases reached with
  | document => exact congrArg Except.ok (whole.get?_eq name)
  | nested v => rfl

namespace Node

variable {parent : Node} {items : List Value}

theorem elementsOf_of_some (found : (reached.content whole).elements? = some items) :
    parent.elementsOf ⟨table, .ofJson whole⟩ reached = .ok items := by
  unfold Value.elements? at found
  split at found
  · rename_i own answered
    cases found
    rw [elementsOf, Scope.get_ofJson, answered]
    rfl
  · cases found

/-- What has no elements is refused, unless it is NULL. -/
theorem elementsOf_of_none (unanswered : (reached.content whole).elements? = none)
    (known : reached ≠ .nested .null) :
    parent.elementsOf ⟨table, .ofJson whole⟩ reached = .error (.notACollection parent.render) := by
  unfold Value.elements? at unanswered
  rw [elementsOf, Scope.get_ofJson]
  cases answered : (reached.content whole).get? elementsName with
  | none =>
      cases reached with
      | document => rfl
      | nested v =>
          cases v with
          | null => exact absurd rfl known
          | _ => rfl
  | some v =>
      cases v with
      | array items =>
          rw [answered] at unanswered
          cases unanswered
      | _ => rfl

variable {s : Session} {root : Root} {start : Scope}

/-- What a collection test ranges over is told by the value that its path leads to. An array is
tested on its own elements, in their order. NULL has none, so the test is false. An object with an
array under the name `*` is tested on the elements of that. All else is refused, under the path: the
other values, whatever their names, and the document itself if it is NULL. -/
theorem collection_tests_by_value (chain : parent.IsChain) (anchored : parent.root? = some root)
    (begins : root.scope? s.items.head? = some start)
    (leads : Leads ⟨table, .ofJson whole⟩ start parent.path reached) (predicate : Node)
    (only : s.scopes = [] ∨ (collection parent predicate).IsWellScoped) :
    let setting : Setting := ⟨table, .ofJson whole⟩
    let answer := (collection parent predicate).valueIn setting s
    let tested := someMatch table (fun element => predicate.valueIn setting (s.within element))
      (.boolean false)
    (∀ items, reached.content whole = .array items → answer = tested items) ∧
    (reached = .nested .null → answer = .ok (.boolean false)) ∧
    (∀ entries items, reached.content whole = .object entries →
      Entries.get? entries "*" = some (.array items) → answer = tested items) ∧
    ((∀ items, reached.content whole ≠ .array items) → reached ≠ .nested .null →
      (∀ entries items, reached.content whole = .object entries →
        Entries.get? entries "*" ≠ some (.array items)) →
      answer = .error (.notACollection (root.pathText parent.path))) := by
  intro setting answer tested
  have walked : parent.IsWalked setting s.items.head? root start := chain.isWalked anchored begins
  have meant := (walked.leads reached).mpr leads
  have ranges : answer = parent.elementsOf setting reached >>= tested :=
    valueIn_collection_of_meaning only meant
  have found {items : List Value} (elements : (reached.content whole).elements? = some items) :
      answer = tested items := by
    rw [ranges, elementsOf_of_some elements]
    rfl
  refine ⟨?_, ?_, ?_, ?_⟩
  · intro items array
    exact found (Value.elements?_eq_some_iff.mpr (.inl array))
  · rintro rfl
    rw [ranges]
    rfl
  · intro entries items object own
    exact found (Value.elements?_eq_some_iff.mpr (.inr ⟨entries, object, own⟩))
  · intro array known object
    have unanswered : (reached.content whole).elements? = none := by
      rw [Option.eq_none_iff_forall_ne_some]
      intro items elements
      rcases Value.elements?_eq_some_iff.mp elements with own | ⟨entries, named, own⟩
      · exact array items own
      · exact object entries items named own
    rw [ranges, elementsOf_of_none unanswered known, chain.render_eq anchored]
    rfl

end Node

end Documents

/-- `{"all": [{"x": 1}], "none": null, "boxed": {"*": [{"x": 1}]}, "count": 1}` -/
def boxedDocument : Json :=
  let one : Json := .number (.whole 1)
  .object [("all", .array [.object [("x", one)]]), ("none", .null),
    ("boxed", .object [("*", .array [.object [("x", one)]])]), ("count", one)]

/-- `$.name[*][?@.x == 1]` -/
def oneIn (name : String) : Node :=
  .collection (.object .globalScope name)
    (.between (.field .item "x") .equal (.literal (.integer 1)))

/-- The members of a document that are an array, NULL, an object with an array under `*`, and a
number. -/
theorem Node.collection_tests_by_value_boxed :
    (oneIn "all").valueIn ⟨.standard, .ofJson boxedDocument⟩ .fresh = .ok (.boolean true) ∧
      (oneIn "none").valueIn ⟨.standard, .ofJson boxedDocument⟩ .fresh = .ok (.boolean false) ∧
      (oneIn "boxed").valueIn ⟨.standard, .ofJson boxedDocument⟩ .fresh = .ok (.boolean true) ∧
      (oneIn "count").valueIn ⟨.standard, .ofJson boxedDocument⟩ .fresh =
        .error (.notACollection "$.count") := by
  have chain (name : String) : (object .globalScope name).IsChain := trivial
  have leads {name : String} {v : Value} (found : boxedDocument.get? name = some v) :
      Leads ⟨.standard, .ofJson boxedDocument⟩ .document (object .globalScope name).path
        (.nested v) := .read (congrArg Except.ok found) (.stay _)
  have tests {name : String} {v : Value} (found : boxedDocument.get? name = some v) :=
    collection_tests_by_value (chain name) rfl rfl (leads found)
      (.between (.field .item "x") .equal (.literal (.integer 1))) (s := .fresh) (.inl rfl)
  let ones : List Value := [.object [("x", .integer 1)]]
  have all : boxedDocument.get? "all" = some (.array ones) := rfl
  have none : boxedDocument.get? "none" = some .null := rfl
  have boxed : boxedDocument.get? "boxed" = some (.object [("*", .array ones)]) := rfl
  have count : boxedDocument.get? "count" = some (.integer 1) := rfl
  refine ⟨?_, ?_, ?_, ?_⟩
  · exact ((tests all).1 ones rfl).trans rfl
  · exact (tests none).2.1 rfl
  · exact ((tests boxed).2.2.1 _ ones rfl rfl).trans rfl
  · exact (tests count).2.2.2 nofun nofun nofun

/-- An object with an array under the name `*` acts as a collection, although it is none. -/
theorem Node.object_acts_as_collection :
    boxedDocument.get? "boxed" = some (.object [("*", .array [.object [("x", .integer 1)]])]) ∧
      (oneIn "boxed").decide (.ofJson boxedDocument) = .ok true :=
  ⟨rfl, rfl⟩

end DataFilter
