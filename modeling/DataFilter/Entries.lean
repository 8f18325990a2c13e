/-!
# Named entries

Data with names (objects, parameters, layouts) is a list of entries in the order of the names, each
name at most once. `Entries.ofList` brings any list into this form; of two entries with one name
the later one is kept.
-/

namespace DataFilter

/-- Entries in the order of their names. -/
abbrev Entries (α : Type) := List (String × α)

namespace Entries

variable {α : Type}

/-- Adds an entry in its place, replacing the one that has the name. -/
def insert (name : String) (value : α) : Entries α → Entries α
  | [] => [(name, value)]
  | (other, present) :: rest =>
    if name = other then (name, value) :: rest
    else if name < other then (name, value) :: (other, present) :: rest
    else (other, present) :: insert name value rest

/-- The entries of a list, the last one of each name. -/
def ofList (list : List (String × α)) : Entries α :=
  list.foldl (fun entries entry => insert entry.1 entry.2 entries) []

/-- The value with a name. -/
def get? (entries : Entries α) (name : String) : Option α := entries.lookup name

theorem get?_cons (name : String) (value : α) (rest : Entries α) (wanted : String) :
    get? ((name, value) :: rest) wanted =
      if wanted = name then some value else get? rest wanted := by
  by_cases h : wanted = name
  · subst h; simp [get?]
  · simp [get?, List.lookup_cons, beq_eq_false_iff_ne.2 h, h]

/-- What is found under a name is the value of an entry. -/
theorem mem_of_get? {entries : Entries α} {name : String} {value : α}
    (h : entries.get? name = some value) : (name, value) ∈ entries := by
  obtain ⟨front, back, heq, -⟩ := List.lookup_eq_some_iff.mp h
  rw [heq]
  exact List.mem_append_right _ List.mem_cons_self

/-- A new entry is found under its name, and no other name is affected. -/
theorem get?_insert (name : String) (value : α) (entries : Entries α) (wanted : String) :
    get? (insert name value entries) wanted =
      if wanted = name then some value else get? entries wanted := by
  induction entries with
  | nil => rw [insert, get?_cons]
  | cons entry rest ih =>
    obtain ⟨other, present⟩ := entry
    unfold insert
    split
    · rename_i hname
      subst hname
      simp only [get?_cons]
      split <;> rfl
    · split
      · simp only [get?_cons]
      · rename_i hname _
        simp only [get?_cons, ih]
        by_cases h : wanted = other
        · subst h; simp [Ne.symm hname]
        · simp [h]

/-- A name that is there is the name of an entry. -/
theorem get?_isSome_iff {entries : Entries α} {name : String} :
    (entries.get? name).isSome = true ↔ name ∈ entries.map Prod.fst := by
  induction entries with
  | nil => simp [get?]
  | cons entry rest ih =>
    rw [get?_cons, List.map_cons, List.mem_cons, ← ih]
    split
    · rename_i found
      simp [found]
    · rename_i other
      simp [other]

/-- A new name is one more entry. -/
theorem insert_perm {entries : Entries α} {name : String} (absent : name ∉ entries.map Prod.fst)
    (value : α) : (entries.insert name value).Perm ((name, value) :: entries) := by
  induction entries with
  | nil => exact .refl _
  | cons entry rest ih =>
    rw [List.map_cons, List.mem_cons, not_or] at absent
    obtain ⟨different, behind⟩ := absent
    rw [insert, if_neg different]
    split
    · exact .refl _
    · exact ((ih behind).cons entry).trans (.swap _ _ _)

/-- What holds of the value of a new entry and of all others holds of all entries. -/
theorem forall_mem_insert {p : α → Prop} {entries : Entries α} {name : String} {value : α}
    (h : p value) (each : ∀ entry ∈ entries, p entry.2) :
    ∀ entry ∈ insert name value entries, p entry.2 := by
  induction entries with
  | nil => exact List.forall_mem_singleton.mpr h
  | cons entry rest ih =>
    obtain ⟨first, others⟩ := List.forall_mem_cons.mp each
    unfold insert
    split
    · exact List.forall_mem_cons.mpr ⟨h, others⟩
    · split
      · exact List.forall_mem_cons.mpr ⟨h, each⟩
      · exact List.forall_mem_cons.mpr ⟨first, ih others⟩

/-- What holds of the values of a list holds of those that are kept. -/
theorem forall_mem_ofList {p : α → Prop} {list : List (String × α)}
    (each : ∀ entry ∈ list, p entry.2) : ∀ entry ∈ ofList list, p entry.2 := by
  have kept (entries : Entries α) (present : ∀ entry ∈ entries, p entry.2) :
      ∀ entry ∈ list.foldl (fun entries entry => insert entry.1 entry.2 entries) entries,
        p entry.2 := by
    induction list generalizing entries with
    | nil => exact present
    | cons entry rest ih =>
      obtain ⟨first, others⟩ := List.forall_mem_cons.mp each
      exact ih others _ (forall_mem_insert first present)
  exact kept [] nofun

/-- Where no name occurs twice, the order of the entries does not matter. -/
theorem get?_eq_of_perm {entries others : Entries α} (distinct : (entries.map Prod.fst).Nodup)
    (same : entries.Perm others) (name : String) : entries.get? name = others.get? name := by
  induction same with
  | nil => rfl
  | cons entry _ ih => rw [get?_cons, get?_cons, ih (List.nodup_cons.mp distinct).2]
  | swap first second rest =>
    have different : second.1 ≠ first.1 := by
      intro equal
      apply (List.nodup_cons.mp distinct).1
      rw [equal]
      exact List.mem_cons_self
    rw [get?_cons, get?_cons, get?_cons, get?_cons]
    split
    · rename_i found
      rw [if_neg (found ▸ different)]
    · rfl
  | trans front _ ih ih' =>
    exact (ih distinct).trans (ih' ((front.map Prod.fst).nodup_iff.mp distinct))

end Entries

end DataFilter
