import DataFilter.Proofs.Entries
import DataFilter.Proofs.Json.Conversion
import DataFilter.Proofs.Json.Printed
import DataFilter.Schema.Json
import Mathlib.Data.List.Induction

/-!
# Schema files come back

A file of tables may be written in many ways: the members of a record and the collections of a table
come in any order, a field may be left out if it has its default, and blanks may stand between the
signs (`WritesFile`). All of them are read as the same schema, the one in which the tables are
registered in their order, so that of several tables with one name the last is known.
-/

namespace DataFilter.Schema

open DataFilter.Json (Written Numeral)

/-! ## How tables are written -/

/-- The fields that are not left out. -/
def present (fields : List (String × Option Json)) : List (String × Json) :=
  fields.filterMap fun field => field.2.map (field.1, ·)

/-- A record with its fields in any order, of which some may be left out. -/
def IsRecord (fields : List (String × Option Json)) (document : Json) : Prop :=
  ∃ members, document = .object members ∧ members.Perm (present fields)

/-- A field that is written, or left out where its value is the default. -/
inductive IsField {α : Type} (fallback : α) (Writes : α → Json → Prop) :
    α → Option Json → Prop where
  | written {a : α} {document : Json} (h : Writes a document) :
      IsField fallback Writes a (some document)
  | omitted : IsField fallback Writes fallback none

/-- A list with its items in their order. -/
def WritesList {α : Type} (Writes : α → Json → Prop) (list : List α) (document : Json) : Prop :=
  ∃ documents, document = .array documents ∧ List.Forall₂ Writes list documents

/-- An alias, which is null where there is none. -/
def WritesAlias (shortName : Option String) (document : Json) : Prop := document = ofAlias shortName

/-- A join key with both columns. -/
def WritesJoinKey (key : JoinKey) (document : Json) : Prop :=
  IsRecord [("child", some (.string key.child)), ("parent", some (.string key.parent))] document

/-- A mapping with its kind. -/
inductive WritesMapping : CollectionMapping → Json → Prop where
  | embedded {document : Json} (record : IsRecord [("kind", some (.string "embedded"))] document) :
      WritesMapping .embedded document
  | relational {relation : Relation} {keys shortName : Option Json} {document : Json}
      (hkeys : IsField [] (WritesList WritesJoinKey) relation.keys keys)
      (hname : IsField none WritesAlias relation.shortName shortName)
      (record : IsRecord [("kind", some (.string "relational")),
        ("table", some (.string relation.table)), ("keys", keys), ("alias", shortName)] document) :
      WritesMapping (.relational relation) document

/-- The collections of a table by name, in any order. -/
def WritesCollections (collections : Entries CollectionMapping) (document : Json) : Prop :=
  ∃ (order : List (String × CollectionMapping)) (members : List (String × Json)),
    order.Perm collections ∧ document = .object members ∧
      List.Forall₂ (fun entry member => entry.1 = member.1 ∧ WritesMapping entry.2 member.2)
        order members

/-- A table with its alias and its collections. -/
inductive WritesTable : TableSchema → Json → Prop where
  | record {schema : TableSchema} {shortName collections : Option Json} {document : Json}
      (hname : IsField none WritesAlias schema.shortName shortName)
      (hcollections : IsField [] WritesCollections schema.collections collections)
      (record : IsRecord [("table", some (.string schema.table)), ("alias", shortName),
        ("collections", collections)] document) :
      WritesTable schema document

/-- A file with its list of tables. -/
def WritesFile (tables : List TableSchema) (document : Json) : Prop :=
  ∃ list, WritesList WritesTable tables list ∧ IsRecord [("tables", some list)] document

/-- The file of some tables, with all their fields. -/
def ofFile (tables : List TableSchema) : Json :=
  .ofMembers [("tables", .array (tables.map ofTableSchema))]

/-! ## Fields of records -/

section Record

variable {fields : List (String × Option Json)} {document : Json} {members : List (String × Json)}
  (numeral : JsonNumber → Numeral)

/-- The document of a field, if it is not left out. -/
def field? (fields : List (String × Option Json)) (name : String) : Option Json :=
  (Entries.get? fields name).join

theorem sublist_present (fields : List (String × Option Json)) :
    ((present fields).map Prod.fst).Sublist (fields.map Prod.fst) := by
  induction fields with
  | nil => exact .slnil
  | cons field rest ih =>
      obtain ⟨name, value⟩ := field
      cases value with
      | none => exact ih.cons name
      | some document => exact ih.cons_cons name

/-- What is left out is not found. -/
theorem get?_present (distinct : (fields.map Prod.fst).Nodup) (name : String) :
    Entries.get? (present fields) name = field? fields name := by
  induction fields with
  | nil => rfl
  | cons field rest ih =>
      obtain ⟨first, value⟩ := field
      obtain ⟨absent, others⟩ := List.nodup_cons.mp distinct
      have behind := ih others
      rw [field?, Entries.get?_cons]
      cases value with
      | none =>
          have left_out : present ((first, none) :: rest) = present rest := rfl
          rw [left_out, behind]
          split
          · rename_i same
            rw [same, field?, Entries.get?_eq_none absent]
            rfl
          · rfl
      | some document =>
          have kept : present ((first, some document) :: rest) =
            (first, document) :: present rest := rfl
          rw [kept, Entries.get?_cons, behind]
          split <;> rfl

/-- Of the members that are written, those with a name. -/
theorem filter_written (distinct : (members.map Prod.fst).Nodup) (name : String) :
    (Json.membersToWritten numeral members).filter
        (fun member => Json.stringOfContent? member.1 = some name) =
      ((Entries.get? members name).map fun document =>
        (Json.content name.toList, document.toWritten numeral)).toList := by
  induction members with
  | nil => rfl
  | cons member rest ih =>
      obtain ⟨first, document⟩ := member
      obtain ⟨absent, others⟩ := List.nodup_cons.mp distinct
      rw [Json.membersToWritten, List.filter_cons, Json.stringOfContent?_content, ih others,
        Entries.get?_cons]
      by_cases same : name = first
      · subst same
        rw [Entries.get?_eq_none absent]
        simp
      · simp [same, Ne.symm same]

/-- A field is found wherever its member stands. -/
theorem member?_of_perm (order : members.Perm (present fields))
    (distinct : (fields.map Prod.fst).Nodup) (name : String) :
    member? (Json.membersToWritten numeral members) name =
      some ((field? fields name).map (Json.toWritten numeral)) := by
  have once : (members.map Prod.fst).Nodup :=
    (order.map Prod.fst).nodup_iff.mpr (distinct.sublist (sublist_present fields))
  rw [member?, filter_written numeral once, ← get?_present distinct,
    ← Entries.get?_eq_of_perm once order]
  cases Entries.get? members name <;> rfl

/-- The fields of a record are found whatever their order. -/
theorem fields?_of_isRecord (record : IsRecord fields document)
    (distinct : (fields.map Prod.fst).Nodup) (names : List String) :
    fields? names (document.toWritten numeral) =
      some (names.map fun name => (field? fields name).map (Json.toWritten numeral)) := by
  obtain ⟨members, rfl, order⟩ := record
  have named : ((Json.membersToWritten numeral members).all fun member =>
      (Json.stringOfContent? member.1).isSome) = true := by
    rw [Json.membersToWritten_eq, List.all_map, List.all_eq_true]
    intro member _
    rw [Function.comp_apply, Json.stringOfContent?_content]
    rfl
  rw [Json.toWritten, fields?, if_pos named]
  induction names with
  | nil => rfl
  | cons name rest ih =>
      rw [List.mapM_cons, member?_of_perm numeral order distinct, ih]
      rfl

end Record

/-! ## Reading what is written -/

/-- The document has no numbers, it is nested at most so deep, and it is read as this. -/
structure ReadsBack {α : Type} (levels : Nat) (read : Written → Option α) (a : α)
    (document : Json) : Prop where
  plain : document.IsPlain levels
  read : ∀ numeral, read (document.toWritten numeral) = some a

section Forms

variable {α : Type} {levels : Nat} {document : Json} {fields : List (String × Option Json)}

theorem isPlain_of_isRecord (record : IsRecord fields document)
    (each : ∀ field ∈ fields, ∀ value ∈ field.2, Json.IsPlain levels value) :
    document.IsPlain (levels + 1) := by
  obtain ⟨members, rfl, order⟩ := record
  refine .object fun member hmember => ?_
  obtain ⟨field, hfield, value⟩ := List.mem_filterMap.mp (order.mem_iff.mp hmember)
  obtain ⟨document, here, rfl⟩ := Option.map_eq_some_iff.mp value
  exact each field hfield document here

/-- A field with a default is read as its value, and one that has to be there as well. -/
theorem optional_of_isField {fallback a : α} {Writes : α → Json → Prop} {value : Option Json}
    {read : Written → Option α} (field : IsField fallback Writes a value)
    (back : ∀ document, Writes a document → ReadsBack levels read a document) :
    (∀ document ∈ value, document.IsPlain levels) ∧
      ∀ numeral, optional fallback read (value.map (Json.toWritten numeral)) = some a := by
  cases field with
  | written h =>
      have reads := back _ h
      refine ⟨?_, reads.read⟩
      rintro _ ⟨⟩
      exact reads.plain
  | omitted => exact ⟨nofun, fun _ => rfl⟩

theorem readsBack_text (levels : Nat) (s : String) : ReadsBack levels text? s (.string s) :=
  ⟨.string levels s, fun _ => Json.stringOfContent?_content s⟩

theorem readsBack_alias (levels : Nat) {shortName : Option String}
    (h : WritesAlias shortName document) : ReadsBack levels shortName? shortName document := by
  obtain rfl := h
  cases shortName with
  | none => exact ⟨.null levels, fun _ => rfl⟩
  | some name =>
      refine ⟨.string levels name, fun numeral => ?_⟩
      show ((text? ((Json.string name).toWritten numeral)).map some) = _
      rw [(readsBack_text levels name).read]
      rfl

/-- Several readings in a row. -/
theorem mapM_of_forall₂ {α β : Type} {read : β → Option α} {list : List α} {forms : List β}
    (each : List.Forall₂ (fun a form => read form = some a) list forms) :
    forms.mapM read = some list := by
  induction each with
  | nil => rfl
  | cons first _ ih => rw [List.mapM_cons, first, ih]; rfl

theorem readsBack_list {Writes : α → Json → Prop} {read : Written → Option α} {list : List α}
    (back : ∀ a ∈ list, ∀ document, Writes a document → ReadsBack levels read a document)
    (h : WritesList Writes list document) : ReadsBack (levels + 1) (list? read) list document := by
  obtain ⟨documents, rfl, each⟩ := h
  have reads := ((List.forall₂_and_left list documents).mpr ⟨back, each⟩).imp
    fun a document ⟨back, writes⟩ => back document writes
  refine ⟨.array ?_, fun numeral => ?_⟩
  · exact Value.forall_mem_of_forall₂ reads fun a _ document reads => reads.plain
  · rw [Json.toWritten, Json.itemsToWritten_eq, list?]
    refine mapM_of_forall₂ (List.forall₂_map_right_iff.mpr (reads.imp ?_))
    exact fun a document reads => reads.read numeral

theorem readsBack_joinKey {key : JoinKey} (h : WritesJoinKey key document) :
    ReadsBack 1 joinKey? key document := by
  refine ⟨isPlain_of_isRecord h ?_, fun numeral => ?_⟩
  · simp [Json.IsPlain.string]
  · rw [joinKey?, fields?_of_isRecord numeral h (by simp)]
    simp [field?, Entries.get?_cons, required, (readsBack_text 0 _).read]

/-- Without its kind a mapping is the record of its other fields. -/
theorem mapping?_of_isRecord {kind : String}
    (record : IsRecord (("kind", some (.string kind)) :: fields) document)
    (distinct : ("kind" :: fields.map Prod.fst).Nodup) (plain : document.IsPlain 3) :
    ∃ others, IsRecord fields others ∧
      ∀ numeral, mapping? (document.toWritten numeral) =
        mappingOfKind? kind (others.toWritten numeral) := by
  obtain ⟨absent, -⟩ := List.nodup_cons.mp distinct
  obtain ⟨members, rfl, order⟩ := record
  refine ⟨.object (members.filter (·.1 ≠ "kind")), ⟨_, rfl, ?_⟩, fun numeral => ?_⟩
  · have kept : (present fields).filter (·.1 ≠ "kind") = present fields := by
      refine List.filter_eq_self.mpr fun member hmember => decide_eq_true ?_
      intro same
      refine absent ((sublist_present fields).subset ?_)
      rw [← same]
      exact List.mem_map_of_mem hmember
    have others := order.filter (·.1 ≠ "kind")
    rwa [show present (("kind", some (.string kind)) :: fields) =
      ("kind", .string kind) :: present fields from rfl, List.filter_cons_of_neg (by simp),
      kept] at others
  · have tag := member?_of_perm numeral order distinct "kind"
    have rest : (Json.membersToWritten numeral members).filter
        (fun member => Json.stringOfContent? member.1 ≠ some "kind") =
          Json.membersToWritten numeral (members.filter (·.1 ≠ "kind")) := by
      rw [Json.membersToWritten_eq, Json.membersToWritten_eq, List.filter_map]
      congr 1
      refine List.filter_congr fun member _ => ?_
      simp [Json.stringOfContent?_content]
    have shallow : 3 < levelsInMapping := by decide
    obtain ⟨meaning, reads⟩ := Option.isSome_iff_exists.mp (plain.isSome_read? numeral shallow)
    rw [Json.toWritten] at reads ⊢
    rw [mapping?, reads, tag, rest]
    show (do
      let kind ← text? ((Json.string kind).toWritten numeral)
      mappingOfKind? kind (.object (Json.membersToWritten numeral _))) = _
    rw [(readsBack_text 0 kind).read, Json.toWritten]
    rfl

theorem readsBack_mapping {mapping : CollectionMapping} (h : WritesMapping mapping document) :
    ReadsBack 3 mapping? mapping document := by
  cases h with
  | embedded record =>
      have plain : document.IsPlain 3 :=
        isPlain_of_isRecord record (by simp [Json.IsPlain.string])
      obtain ⟨others, ⟨members, rfl, -⟩, read⟩ := mapping?_of_isRecord record (by simp) plain
      exact ⟨plain, read⟩
  | relational hkeys hname record =>
      obtain ⟨keysPlain, keysRead⟩ := optional_of_isField hkeys fun _ h =>
        readsBack_list (fun _ _ _ => readsBack_joinKey) h
      obtain ⟨namePlain, nameRead⟩ := optional_of_isField hname fun _ => readsBack_alias 2
      have plain : document.IsPlain 3 :=
        isPlain_of_isRecord record (by simpa [Json.IsPlain.string] using ⟨keysPlain, namePlain⟩)
      obtain ⟨others, fields, read⟩ := mapping?_of_isRecord record (by simp) plain
      refine ⟨plain, fun numeral => ?_⟩
      rw [read, mappingOfKind?, relation?, fields?_of_isRecord numeral fields (by simp)]
      simp [field?, Entries.get?_cons, required, (readsBack_text 0 _).read, keysRead, nameRead]

/-- The collections come into the order of their names. -/
theorem readsBack_collections {collections : Entries CollectionMapping}
    (ordered : collections.IsOrdered) (h : WritesCollections collections document) :
    ReadsBack 4 collections? collections document := by
  obtain ⟨order, members, same, rfl, each⟩ := h
  have reads := each.imp fun entry member ⟨named, h⟩ => And.intro named (readsBack_mapping h)
  refine ⟨.object ?_, fun numeral => ?_⟩
  · exact Value.forall_mem_of_forall₂ reads fun _ _ _ back => back.2.plain
  · have found : (Json.membersToWritten numeral members).mapM
        (fun m => return (← Json.stringOfContent? m.1, ← mapping? m.2)) = some order := by
      rw [Json.membersToWritten_eq]
      refine mapM_of_forall₂ (List.forall₂_map_right_iff.mpr (reads.imp ?_))
      rintro ⟨name, mapping⟩ ⟨_, document⟩ ⟨rfl, back⟩
      rw [Json.stringOfContent?_content, back.read]
      rfl
    rw [Json.toWritten, collections?, found, ← ordered.ofList_eq same]
    rfl

theorem readsBack_table {schema : TableSchema} (ordered : schema.collections.IsOrdered)
    (h : WritesTable schema document) : ReadsBack 5 tableSchema? schema document := by
  obtain ⟨hname, hcollections, record⟩ := h
  obtain ⟨namePlain, nameRead⟩ := optional_of_isField hname fun _ => readsBack_alias 4
  obtain ⟨collectionsPlain, collectionsRead⟩ := optional_of_isField hcollections fun _ h =>
    readsBack_collections ordered h
  refine ⟨isPlain_of_isRecord record ?_, fun numeral => ?_⟩
  · simpa [Json.IsPlain.string] using ⟨namePlain, collectionsPlain⟩
  · rw [tableSchema?, fields?_of_isRecord numeral record (by simp)]
    simp [field?, Entries.get?_cons, required, (readsBack_text 0 _).read, nameRead,
      collectionsRead]

end Forms

/-! ## Files -/

section File

variable {tables : List TableSchema} {document : Json}

/-- A file is read as its tables, registered one after the other. -/
theorem ofText?_of_writesFile (ordered : ∀ table ∈ tables, table.collections.IsOrdered)
    (h : WritesFile tables document) {layout : Json.Layout} (blank : layout.IsBlank) :
    ofText? (Json.render layout document) = some (ofTables tables) := by
  obtain ⟨list, h, record⟩ := h
  have reads : ReadsBack 6 (list? tableSchema?) tables list :=
    readsBack_list (fun table htable _ => readsBack_table (ordered table htable)) h
  have plain : document.IsPlain 7 :=
    isPlain_of_isRecord record (by simpa using reads.plain)
  -- there are no numbers, so any numerals do
  let numeral : JsonNumber → Numeral := fun _ => ⟨false, [], [], none⟩
  rw [ofText?, plain.ofText?_render blank numeral]
  simp [fields?_of_isRecord numeral record, field?, Entries.get?_cons, required, reads.read]

/-- The last of the tables with a name is known under it. -/
theorem table?_ofTables (tables : List TableSchema) (name : String) :
    (ofTables tables).table? name = tables.reverse.find? (·.table = name) := by
  -- along the list from its end, where the last table has been registered
  induction tables using List.reverseRecOn with
  | nil => rfl
  | append_singleton front last ih =>
      have registered : ofTables (front ++ [last]) = (ofTables front).register last := by
        simp [ofTables]
      rw [registered, table?_register, ih, List.reverse_append, List.reverse_singleton,
        List.singleton_append, List.find?_cons]
      by_cases same : name = last.table
      · simp [same]
      · simp [same, Ne.symm same]

/-! ## The file with all fields -/

/-- The members of an object come in the order of their names. -/
theorem isRecord_ofMembers {fields : List (String × Option Json)}
    (distinct : ((present fields).map Prod.fst).Nodup) :
    IsRecord fields (.ofMembers (present fields)) :=
  ⟨_, rfl, Entries.ofList_perm distinct⟩

theorem writesJoinKey_ofJoinKey (key : JoinKey) : WritesJoinKey key (ofJoinKey key) :=
  isRecord_ofMembers (by simp [present])

theorem writesMapping_ofMapping (mapping : CollectionMapping) :
    WritesMapping mapping (ofMapping mapping) := by
  cases mapping with
  | embedded => exact .embedded (isRecord_ofMembers (by simp [present]))
  | relational relation =>
      refine .relational (.written ⟨_, rfl, ?_⟩) (.written rfl) (isRecord_ofMembers ?_)
      · rw [List.forall₂_map_right_iff, List.forall₂_same]
        exact fun key _ => writesJoinKey_ofJoinKey key
      · simp [present]

theorem writesCollections_ofMembers {collections : Entries CollectionMapping}
    (ordered : collections.IsOrdered) :
    WritesCollections collections
      (.ofMembers (collections.map fun entry => (entry.1, ofMapping entry.2))) := by
  have names : Entries.IsOrdered (collections.map fun entry => (entry.1, ofMapping entry.2)) :=
    List.pairwise_map.mpr ordered
  refine ⟨collections, _, .refl _, rfl, ?_⟩
  rw [names.ofList_eq (.refl _), List.forall₂_map_right_iff, List.forall₂_same]
  exact fun entry _ => ⟨rfl, writesMapping_ofMapping entry.2⟩

theorem writesTable_ofTableSchema {schema : TableSchema} (ordered : schema.collections.IsOrdered) :
    WritesTable schema (ofTableSchema schema) :=
  .record (.written rfl) (.written (writesCollections_ofMembers ordered))
    (isRecord_ofMembers (by simp [present]))

theorem writesFile_ofFile (ordered : ∀ table ∈ tables, table.collections.IsOrdered) :
    WritesFile tables (ofFile tables) := by
  refine ⟨_, ⟨_, rfl, ?_⟩, isRecord_ofMembers (by simp [present])⟩
  rw [List.forall₂_map_right_iff, List.forall₂_same]
  exact fun table htable => writesTable_ofTableSchema (ordered table htable)

/-- Tables come back from their file: as long as the collections of each are in the order of their
names, as entries are, the file with all their fields is one of their files, every file of theirs is
read as the schema in which they are registered in their order, whatever is omitted, reordered or
laid out in another way, and under a name the last of them that has it is known. -/
theorem files_come_back (ordered : ∀ table ∈ tables, table.collections.IsOrdered) :
    WritesFile tables (ofFile tables) ∧
      (∀ document, WritesFile tables document → ∀ layout : Json.Layout, layout.IsBlank →
        ofText? (Json.render layout document) = some (ofTables tables)) ∧
      ∀ name, (ofTables tables).table? name = tables.reverse.find? (·.table = name) :=
  ⟨writesFile_ofFile ordered, fun _ writes _ blank => ofText?_of_writesFile ordered writes blank,
    table?_ofTables tables⟩

end File

/-! ## A file with omissions -/

/-- A table of which nothing but the name is known. -/
def bareStores : TableSchema := ⟨"stores", none, []⟩

/-- The relation of a collection that is joined by two keys. -/
def items : Relation := ⟨"items", [⟨"store_id", "id"⟩, ⟨"region", "region"⟩], none⟩

/-- The table with an alias, a relational collection and an embedded one. -/
def stores : TableSchema :=
  ⟨"stores", some "s", [("Items", .relational items), ("Tags", .embedded)]⟩

/-- The items in a file, without an alias and with the fields the other way round. -/
def itemsDocument : Json :=
  .object [("keys", .array (items.keys.map ofJoinKey)), ("table", .string "items"),
    ("kind", .string "relational")]

/-- The stores in a file, with the fields and the collections the other way round. -/
def storesDocument : Json :=
  .object [
    ("collections", .object [("Tags", .object [("kind", .string "embedded")]),
      ("Items", itemsDocument)]),
    ("alias", .string "s"), ("table", .string "stores")]

/-- A file of both tables. -/
def storesFile : Json :=
  .object [("tables", .array [.object [("table", .string "stores")], storesDocument])]

theorem writesMapping_itemsDocument : WritesMapping (.relational items) itemsDocument := by
  refine .relational (.written ⟨_, rfl, ?_⟩) .omitted ⟨_, rfl, List.reverse_perm [_, _, _]⟩
  rw [List.forall₂_map_right_iff, List.forall₂_same]
  exact fun key _ => writesJoinKey_ofJoinKey key

theorem writesTable_storesDocument : WritesTable stores storesDocument := by
  have collections : WritesCollections stores.collections
      (.object [("Tags", .object [("kind", .string "embedded")]), ("Items", itemsDocument)]) :=
    ⟨_, _, List.reverse_perm _, rfl, .cons ⟨rfl, .embedded ⟨_, rfl, .refl _⟩⟩
      (.cons ⟨rfl, writesMapping_itemsDocument⟩ .nil)⟩
  exact .record (.written rfl) (.written collections) ⟨_, rfl, List.reverse_perm [_, _, _]⟩

/-- The second table replaces the first one. -/
theorem files_come_back_stores :
    WritesFile [bareStores, stores] storesFile ∧
      ofText? (Json.render .pretty storesFile) = some (ofTables [bareStores, stores]) ∧
      (ofTables [bareStores, stores]).table? "stores" = some stores := by
  have writes : WritesFile [bareStores, stores] storesFile :=
    ⟨_, ⟨_, rfl, .cons (.record .omitted .omitted ⟨_, rfl, .refl _⟩)
      (.cons writesTable_storesDocument .nil)⟩, _, rfl, .refl _⟩
  have ordered : ∀ table ∈ [bareStores, stores], table.collections.IsOrdered := by
    unfold Entries.IsOrdered
    decide +kernel
  obtain ⟨-, read, known⟩ := files_come_back ordered
  refine ⟨writes, read _ writes _ Json.Layout.isBlank_pretty, ?_⟩
  rw [known]
  decide +kernel

end DataFilter.Schema
