import DataFilter.Entries

/-!
# The order of entries

The names of entries ascend, and so they do when an entry is added. A list in which no name occurs
twice has one such form, whatever its order: as many entries, and the same ones.
-/

namespace DataFilter.Entries

variable {α : Type} {entries : Entries α}

theorem get?_eq_none {name : String} (absent : name ∉ entries.map Prod.fst) :
    entries.get? name = none := by
  rw [← Option.not_isSome_iff_eq_none]
  exact fun here => absent (get?_isSome_iff.mp here)

/-- The names ascend, so none of them occurs twice. -/
def IsOrdered (entries : Entries α) : Prop := entries.Pairwise fun a b => a.1 < b.1

theorem IsOrdered.nodup (h : entries.IsOrdered) : (entries.map Prod.fst).Nodup := by
  rw [List.nodup_iff_pairwise_ne, List.pairwise_map]
  refine h.imp fun {a b} less same => ?_
  rw [same] at less
  exact String.lt_irrefl _ less

theorem mem_insert {name : String} {value : α} {entry : String × α}
    (h : entry ∈ entries.insert name value) : entry = (name, value) ∨ entry ∈ entries := by
  induction entries with
  | nil => exact .inl (List.mem_singleton.mp h)
  | cons first rest ih =>
      unfold insert at h
      split at h
      · exact (List.mem_cons.mp h).imp_right (List.mem_cons_of_mem first)
      · split at h
        · exact List.mem_cons.mp h
        · rcases List.mem_cons.mp h with rfl | behind
          · exact .inr List.mem_cons_self
          · exact (ih behind).imp_right (List.mem_cons_of_mem first)

/-- An added entry has its place in the order. -/
theorem IsOrdered.insert (h : entries.IsOrdered) (name : String) (value : α) :
    (entries.insert name value).IsOrdered := by
  induction entries with
  | nil => exact List.pairwise_singleton _ _
  | cons first rest ih =>
      obtain ⟨smallest, others⟩ := List.pairwise_cons.mp h
      unfold Entries.insert
      split
      · rename_i same
        subst same
        exact List.pairwise_cons.mpr ⟨smallest, others⟩
      · rename_i different
        split
        · rename_i less
          refine List.pairwise_cons.mpr ⟨List.forall_mem_cons.mpr ⟨less, ?_⟩, h⟩
          exact fun entry hentry => String.lt_trans less (smallest entry hentry)
        · rename_i not_less
          have greater : first.1 < name := Decidable.byContradiction fun not_greater =>
            different
              (String.le_antisymm (String.not_lt.mp not_greater) (String.not_lt.mp not_less))
          refine List.pairwise_cons.mpr ⟨fun entry hentry => ?_, ih others⟩
          rcases mem_insert hentry with rfl | behind
          · exact greater
          · exact smallest entry behind

theorem isOrdered_ofList (list : List (String × α)) : (ofList list).IsOrdered := by
  suffices kept : ∀ entries : Entries α, entries.IsOrdered →
      (list.foldl (fun entries entry => entries.insert entry.1 entry.2) entries).IsOrdered from
    kept [] .nil
  induction list with
  | nil => exact fun entries ordered => ordered
  | cons entry rest ih => exact fun entries ordered => ih _ (ordered.insert entry.1 entry.2)

/-- All entries of a list in which no name occurs twice are kept. -/
theorem ofList_perm {list : List (String × α)} (distinct : (list.map Prod.fst).Nodup) :
    (ofList list).Perm list := by
  -- entries that are there already have other names
  suffices kept : ∀ entries : Entries α, ((entries ++ list).map Prod.fst).Nodup →
      (list.foldl (fun entries entry => entries.insert entry.1 entry.2) entries).Perm
        (entries ++ list) from kept [] distinct
  clear distinct
  induction list with
  | nil =>
      intro entries _
      rw [List.append_nil]
      exact .refl _
  | cons entry rest ih =>
      intro entries distinct
      have front : (entries ++ entry :: rest).Perm (entry :: entries ++ rest) := List.perm_middle
      have names := (front.map Prod.fst).nodup_iff.mp distinct
      have absent : entry.1 ∉ entries.map Prod.fst := by
        rw [List.cons_append, List.map_cons, List.map_append] at names
        exact fun here => (List.nodup_cons.mp names).1 (List.mem_append_left _ here)
      have added : (entries.insert entry.1 entry.2 ++ rest).Perm (entry :: entries ++ rest) :=
        (insert_perm absent entry.2).append_right rest
      have same := ih (entries.insert entry.1 entry.2) ((added.map Prod.fst).nodup_iff.mpr names)
      exact same.trans (added.trans front.symm)

/-- Whatever order entries are given in, they come into their own. -/
theorem IsOrdered.ofList_eq (h : entries.IsOrdered) {list : List (String × α)}
    (same : list.Perm entries) : ofList list = entries := by
  have kept := ofList_perm ((same.map Prod.fst).nodup_iff.mpr h.nodup)
  refine List.Perm.eq_of_pairwise (fun a b _ _ less greater => ?_) (isOrdered_ofList list) h
    (kept.trans same)
  exact absurd greater (String.lt_asymm less)

end DataFilter.Entries
