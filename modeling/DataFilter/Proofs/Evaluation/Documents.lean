import DataFilter.Evaluation.Session
import DataFilter.Json.Value

/-!
# The forms of a document

A condition may be decided against a document as it is, against the value of the document, or
against the values of its members under their names. They turn into values at different moments: a
document only what is read from it, member by member, a value all at once. The answers to names are
the same, since the value of a member is the member of the value (`Json.get?_eq`), and a session asks
a context for nothing else. So no tree can tell the forms apart, by what it comes to or by how it
fails.
-/

namespace DataFilter

/-! ## Looking up names -/

/-- The values of the members are found where the members are. -/
theorem get?_valuesOfMembers (members : List (String × Json)) (name : String) :
    Entries.get? (valuesOfMembers members) name =
      (Entries.get? members name).map Json.toValue := by
  induction members with
  | nil => rfl
  | cons member rest ih =>
      rw [valuesOfMembers, Entries.get?_cons, Entries.get?_cons, ih]
      split <;> rfl

theorem map_fst_valuesOfMembers (members : List (String × Json)) :
    (valuesOfMembers members).map Prod.fst = members.map Prod.fst := by
  induction members with
  | nil => rfl
  | cons member rest ih =>
      rw [valuesOfMembers, List.map_cons, List.map_cons, ih]

/-- What a document answers to a name, its value answers. -/
theorem Json.get?_eq (document : Json) (name : String) :
    document.get? name = document.toValue.get? name := by
  cases document with
  | object members =>
      rw [toValue]
      exact (get?_valuesOfMembers members name).symm
  | array items =>
      rw [toValue]
      show (if _ then some (toValue (array items)) else none) = _
      rw [toValue]
      rfl
  | number n =>
      -- a number knows no names, whatever number it is
      rw [toValue]
      cases n with
      | whole n =>
          rw [JsonNumber.toValue]
          cases Integer.ofInt? n <;> rfl
      | binary x => rfl
  | _ =>
      rw [toValue]
      rfl

/-! ## Contexts -/

namespace Context

/-- No tree can tell the contexts apart: whatever the rules, a visit in any session comes to the same
and leaves the same session behind, and the tree is decided alike. -/
def IsIndistinct (context context' : Context) : Prop :=
  ∀ (tree : Node) (table : OperatorTable),
    (∀ s : Session, (tree.visit ⟨table, context⟩).run s = (tree.visit ⟨table, context'⟩).run s) ∧
    tree.decideWith table context = tree.decideWith table context' ∧
    tree.decide context = tree.decide context'

section Indistinct

variable {context context' : Context}

/-- Contexts that answer alike are all that a session knows of them. -/
theorem isIndistinct_of_get (alike : ∀ name, context.get name = context'.get name) :
    context.IsIndistinct context' := by
  intro tree table
  have same : context = context' := congrArg Context.mk (funext alike)
  rw [same]
  exact ⟨fun _ => rfl, rfl, rfl⟩

end Indistinct

/-- A document decides every tree as its value does. If it is an object, so do the values of its
members under their names, in whatever order they are kept. -/
theorem document_forms_are_indistinct (document : Json) :
    (ofJson document).IsIndistinct (ofValue document.toValue) ∧
    ∀ members, document = .object members →
      (ofJson document).IsIndistinct (ofEntries (valuesOfMembers members)) ∧
      ∀ entries : Entries Value, (members.map Prod.fst).Nodup →
        entries.Perm (valuesOfMembers members) →
        (ofJson document).IsIndistinct (ofEntries entries) := by
  refine ⟨?_, ?_⟩
  · apply isIndistinct_of_get
    intro name
    exact congrArg Except.ok (document.get?_eq name)
  · rintro members rfl
    have found (name : String) : (Json.object members).get? name =
        Entries.get? (valuesOfMembers members) name := (get?_valuesOfMembers members name).symm
    refine ⟨?_, ?_⟩
    · apply isIndistinct_of_get
      intro name
      exact congrArg Except.ok (found name)
    · intro entries distinct same
      apply isIndistinct_of_get
      intro name
      have names : ((valuesOfMembers members).map Prod.fst).Nodup := by
        rw [map_fst_valuesOfMembers]
        exact distinct
      have moved := Entries.get?_eq_of_perm names same.symm name
      exact congrArg Except.ok ((found name).trans moved)

/-- `{"list": [null], "user": {"age": 30}}` -/
def userMembers : List (String × Json) :=
  [("list", .array [.null]), ("user", .object [("age", .number (.whole 30))])]

/-- The values of `userMembers`, the other way round. -/
def userEntries : Entries Value :=
  [("user", .object [("age", .integer 30)]), ("list", .array [.null])]

/-- The members of a document can be kept in another order. -/
theorem document_forms_are_indistinct_user :
    (userMembers.map Prod.fst).Nodup ∧ userEntries.Perm (valuesOfMembers userMembers) ∧
      (ofJson (.object userMembers)).IsIndistinct (ofEntries userEntries) := by
  have names : (userMembers.map Prod.fst).Nodup := by decide
  have values : valuesOfMembers userMembers =
      [("list", .array [.null]), ("user", .object [("age", .integer 30)])] := by
    simp only [userMembers, valuesOfMembers, valuesOfItems, Json.toValue, JsonNumber.toValue]
    rfl
  have turned : userEntries.Perm (valuesOfMembers userMembers) := by
    rw [values]
    exact .swap _ _ _
  obtain ⟨-, object⟩ := document_forms_are_indistinct (.object userMembers)
  exact ⟨names, turned, (object userMembers rfl).2 userEntries names turned⟩

end Context

end DataFilter
