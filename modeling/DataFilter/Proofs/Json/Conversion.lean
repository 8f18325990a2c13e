import DataFilter.Json.Value
import Mathlib.Data.List.Forall2

/-!
# Values that documents hold

A value becomes a document, and the document becomes a value. For values that are made of null,
booleans, whole numbers, finite binary numbers, strings, arrays and objects that changes nothing
(`IsJsonLike.toValue_toJson`). In particular a whole number is still a whole number and a binary one
is still binary, whole or not: a document says which one a number is. All other values come back as
values of this kind, so they are lost.
-/

namespace DataFilter

namespace Value

/-- A value that is built, to any depth, from what documents consist of. -/
inductive IsJsonLike : Value → Prop where
  | null : IsJsonLike .null
  | boolean (b : Bool) : IsJsonLike (.boolean b)
  | integer (n : Integer) : IsJsonLike (.integer n)
  | float {x : Binary64} (finite : x.isFinite = true) : IsJsonLike (.float x)
  | text (s : String) : IsJsonLike (.text s)
  | array {items : List Value} (each : ∀ v ∈ items, IsJsonLike v) : IsJsonLike (.array items)
  | object {entries : List (String × Value)} (each : ∀ entry ∈ entries, IsJsonLike entry.2) :
      IsJsonLike (.object entries)

/-! ## Item by item -/

theorem valuesOfItems_documentsOfItems (items : List Value) :
    valuesOfItems (documentsOfItems items) = items.map fun v => v.toJson.toValue := by
  induction items with
  | nil => rfl
  | cons v rest ih => rw [documentsOfItems, valuesOfItems, ih, List.map_cons]

theorem valuesOfMembers_documentsOfEntries (entries : List (String × Value)) :
    valuesOfMembers (documentsOfEntries entries) =
      entries.map fun entry => (entry.1, entry.2.toJson.toValue) := by
  induction entries with
  | nil => rfl
  | cons entry rest ih => rw [documentsOfEntries, valuesOfMembers, ih, List.map_cons]

theorem toValue_toJson_array (items : List Value) :
    (array items).toJson.toValue = .array (items.map fun v => v.toJson.toValue) := by
  rw [toJson, Json.toValue, valuesOfItems_documentsOfItems]

theorem toValue_toJson_object (entries : List (String × Value)) :
    (object entries).toJson.toValue =
      .object (entries.map fun entry => (entry.1, entry.2.toJson.toValue)) := by
  rw [toJson, Json.toValue, valuesOfMembers_documentsOfEntries]

theorem equalItems_iff {as bs : List Value} :
    equalItems as bs = true ↔ List.Forall₂ (fun a b => a.equal b = true) as bs := by
  induction as generalizing bs with
  | nil => cases bs <;> simp [equalItems]
  | cons a as ih => cases bs <;> simp [equalItems, ih]

theorem equalEntries_iff {as bs : List (String × Value)} :
    equalEntries as bs = true ↔
      List.Forall₂ (fun a b => a.1 = b.1 ∧ a.2.equal b.2 = true) as bs := by
  induction as generalizing bs with
  | nil => cases bs <;> simp [equalEntries]
  | cons a as ih => cases bs <;> simp [equalEntries, ih]

/-- What each item of one list makes true of the items that it is related to holds throughout the
other list. -/
theorem forall_mem_of_forall₂ {α β : Type} {R : α → β → Prop} {q : β → Prop} {as : List α}
    {bs : List β} (h : List.Forall₂ R as bs) (each : ∀ a ∈ as, ∀ b, R a b → q b) :
    ∀ b ∈ bs, q b := by
  induction h with
  | nil => nofun
  | @cons a b as bs related _ ih =>
      obtain ⟨first, others⟩ := List.forall_mem_cons.mp each
      exact List.forall_mem_cons.mpr ⟨first b related, ih others⟩

/-! ## Values that come back -/

/-- No infinite number and no `nan` is equal to a finite number. -/
theorem isFinite_of_equal {x y : Binary64} (finite : x.isFinite = true)
    (same : x.equal y = true) : y.isFinite = true := by
  cases x with
  | finite =>
      cases y with
      | finite => rfl
      | nan => cases same
      | infinite negative => cases negative <;> cases same
  | _ => cases finite

/-- Whatever a value is, it comes back as one that documents hold. -/
theorem isJsonLike_toValue_toJson (v : Value) : v.toJson.toValue.IsJsonLike := by
  have number (x : Binary64) : x.toJson.toValue.IsJsonLike := by
    unfold Binary64.toJson
    split
    · exact .float ‹_›
    · exact .null
  cases v with
  | null => exact .null
  | boolean b => exact .boolean b
  | integer n =>
      rw [toJson, Json.toValue, JsonNumber.toValue, Integer.ofInt?_eq_some_iff.mpr rfl]
      exact .integer n
  | float x => exact number x
  | decimal d => exact number d.toBinary64
  | text s => exact .text s
  | instant t => exact .text t.render
  | duration d => exact .text d.render
  | array items =>
      rw [toValue_toJson_array]
      refine .array fun w hw => ?_
      obtain ⟨v, hv, rfl⟩ := List.mem_map.mp hw
      exact isJsonLike_toValue_toJson v
  | object entries =>
      rw [toValue_toJson_object]
      refine .object fun entry hentry => ?_
      obtain ⟨⟨name, v⟩, hv, rfl⟩ := List.mem_map.mp hentry
      have smaller : sizeOf v < sizeOf entries := by
        have := List.sizeOf_lt_of_mem hv
        rw [Prod.mk.sizeOf_spec] at this
        omega
      exact isJsonLike_toValue_toJson v
  | custom o => exact .text o.render

namespace IsJsonLike

variable {v w : Value}

/-- A value that documents hold comes back as it was, and so does every number in it. -/
theorem toValue_toJson (h : v.IsJsonLike) : v.toJson.toValue = v := by
  induction h with
  | null | boolean | text => rfl
  | integer n => rw [toJson, Json.toValue, JsonNumber.toValue, Integer.ofInt?_eq_some_iff.mpr rfl]
  | float finite =>
      rw [toJson, Binary64.toJson, if_pos finite]
      rfl
  | array _ ih => rw [toValue_toJson_array, List.map_congr_left ih, List.map_id']
  | object _ ih =>
      rw [toValue_toJson_object, List.map_congr_left fun entry hentry => by rw [ih entry hentry],
        List.map_id']

theorem equal_self (h : v.IsJsonLike) : v.equal v = true := by
  induction h with
  | null => rfl
  | boolean | integer | text => exact beq_self_eq_true _
  | @float x finite =>
      cases x with
      | finite negative units h => simp [equal, Binary64.equal, Binary64.compare?]
      | _ => cases finite
  | array _ ih => exact equalItems_iff.mpr (List.forall₂_same.mpr ih)
  | object _ ih =>
      refine equalEntries_iff.mpr (List.forall₂_same.mpr ?_)
      intro entry hentry
      exact ⟨rfl, ih entry hentry⟩

/-- What is equal to a value that documents hold is such a value. -/
theorem of_equal (h : v.IsJsonLike) (same : v.equal w = true) : w.IsJsonLike := by
  induction h generalizing w with
  | null =>
      cases w with
      | null => exact .null
      | _ => cases same
  | boolean =>
      cases w with
      | boolean b => exact .boolean b
      | _ => cases same
  | integer =>
      cases w with
      | integer n => exact .integer n
      | _ => cases same
  | text =>
      cases w with
      | text s => exact .text s
      | _ => cases same
  | @float x finite =>
      cases w with
      | float y => exact .float (isFinite_of_equal finite same)
      | _ => cases same
  | array _ ih =>
      cases w with
      | array items =>
          have related := equalItems_iff.mp same
          exact .array (forall_mem_of_forall₂ related fun a ha b hab => ih a ha hab)
      | _ => cases same
  | object _ ih =>
      cases w with
      | object entries =>
          have related := equalEntries_iff.mp same
          exact .object (forall_mem_of_forall₂ related fun a ha b hab => ih a ha hab.2)
      | _ => cases same

end IsJsonLike

/-- A value comes back from its document as it was, with every number of the type that it had,
exactly if it is built from null, booleans, whole numbers, finite binary numbers, strings, arrays
and objects. A program that compares the two sees the same. -/
theorem toValue_toJson_eq_iff (v : Value) :
    (v.toJson.toValue = v ↔ v.IsJsonLike) ∧ (v.toJson.toValue.equal v = true ↔ v.IsJsonLike) := by
  have back := isJsonLike_toValue_toJson v
  refine ⟨⟨fun same => same ▸ back, IsJsonLike.toValue_toJson⟩, back.of_equal, ?_⟩
  intro h
  rw [h.toValue_toJson]
  exact h.equal_self

/-- The greatest whole number, and zero as a whole number and as a binary one with its sign. -/
example :
    let v := object [("limit", .integer 9223372036854775807),
      ("zeros", .array [.integer 0, .float (.zero true)])]
    v.toJson.toValue = v := rfl

end Value

end DataFilter
