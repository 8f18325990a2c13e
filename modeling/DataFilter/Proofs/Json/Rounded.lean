import DataFilter.Check
import DataFilter.Proofs.Json.Numerals
import DataFilter.Proofs.Node.Filling
import DataFilter.Proofs.Sql.Independence
import DataFilter.Proofs.Template.Acceptance

/-!
# What a document loses as a value

A document becomes a value, and the value becomes a document. Whole numbers of values are signed,
those of documents reach twice as far: from `2^63` on they become binary, which rounds them to 53
bits. Everything else comes back as it was, at any depth (`Json.toJson_toValue`). So a document comes
back exactly if it has no such number, and a parameter that is given as a document is written beside
the SQL in the same form.
-/

namespace DataFilter

/-- The number is one that values hold, too. -/
def JsonNumber.IsKept : JsonNumber → Prop
  | whole n => n < 9223372036854775808
  | binary _ => True

/-- A number of a document after it has been one of a value. -/
def JsonNumber.rounded : JsonNumber → JsonNumber
  | whole n => if n < 9223372036854775808 then whole n else binary (.ofInt n)
  | binary x => binary x

theorem JsonNumber.rounded_eq_self_iff (n : JsonNumber) : n.rounded = n ↔ n.IsKept := by
  cases n with
  | whole n => simp [rounded, IsKept]
  | binary x => simp [rounded, IsKept]

namespace Json

mutual

/-- The document with all its numbers changed. -/
def mapNumbers (f : JsonNumber → JsonNumber) : Json → Json
  | null => null
  | bool b => bool b
  | number n => number (f n)
  | string s => string s
  | array items => array (mapItems f items)
  | object members => object (mapMembers f members)

/-- The items of an array with all their numbers changed. -/
def mapItems (f : JsonNumber → JsonNumber) : List Json → List Json
  | [] => []
  | item :: rest => mapNumbers f item :: mapItems f rest

/-- The members of an object with all their numbers changed. -/
def mapMembers (f : JsonNumber → JsonNumber) : List (String × Json) → List (String × Json)
  | [] => []
  | (name, v) :: rest => (name, mapNumbers f v) :: mapMembers f rest

end

/-! ## Changing numbers -/

section MapNumbers

variable (f : JsonNumber → JsonNumber)

theorem mapItems_eq (items : List Json) : mapItems f items = items.map (mapNumbers f) := by
  induction items with
  | nil => rfl
  | cons item rest ih => rw [mapItems, ih, List.map_cons]

theorem mapMembers_eq (members : List (String × Json)) :
    mapMembers f members = members.map fun member => (member.1, mapNumbers f member.2) := by
  induction members with
  | nil => rfl
  | cons member rest ih => rw [mapMembers, ih, List.map_cons]

theorem map_eq_self_iff {α : Type} {g : α → α} {list : List α} :
    list.map g = list ↔ ∀ a ∈ list, g a = a := by
  induction list with
  | nil => simp
  | cons a rest ih => simp [ih]

/-- A document stays as it is just if each of its numbers does. -/
theorem mapNumbers_eq_self_iff (document : Json) :
    mapNumbers f document = document ↔ document.NumbersAre fun n => f n = n := by
  cases document with
  | null => exact ⟨fun _ => .null, fun _ => rfl⟩
  | bool b => exact ⟨fun _ => .bool b, fun _ => rfl⟩
  | string s => exact ⟨fun _ => .string s, fun _ => rfl⟩
  | number n =>
      rw [mapNumbers, number.injEq]
      constructor
      · intro same
        exact .number same
      · rintro ⟨⟩
        assumption
  | array items =>
      have each : ∀ item ∈ items, (mapNumbers f item = item ↔ item.NumbersAre fun n => f n = n) :=
        fun item _ => mapNumbers_eq_self_iff item
      rw [mapNumbers, array.injEq, mapItems_eq, map_eq_self_iff]
      constructor
      · intro same
        exact .array fun item hitem => (each item hitem).mp (same item hitem)
      · rintro ⟨⟩
        rename_i inside
        exact fun item hitem => (each item hitem).mpr (inside item hitem)
  | object members =>
      have each : ∀ member ∈ members,
          (mapNumbers f member.2 = member.2 ↔ member.2.NumbersAre fun n => f n = n) := by
        intro member hmember
        have smaller : sizeOf member.2 < sizeOf members := by
          have := List.sizeOf_lt_of_mem hmember
          obtain ⟨name, v⟩ := member
          rw [Prod.mk.sizeOf_spec] at this
          simp only
          omega
        exact mapNumbers_eq_self_iff member.2
      rw [mapNumbers, object.injEq, mapMembers_eq, map_eq_self_iff]
      constructor
      · intro same
        exact .object fun member hmember =>
          (each member hmember).mp (congrArg Prod.snd (same member hmember))
      · rintro ⟨⟩
        rename_i inside
        exact fun member hmember =>
          Prod.ext rfl ((each member hmember).mpr (inside member hmember))

end MapNumbers

/-! ## Through values -/

theorem documentsOfItems_valuesOfItems (items : List Json) :
    documentsOfItems (valuesOfItems items) = items.map fun item => item.toValue.toJson := by
  induction items with
  | nil => rfl
  | cons item rest ih => rw [valuesOfItems, documentsOfItems, ih, List.map_cons]

theorem documentsOfEntries_valuesOfMembers (members : List (String × Json)) :
    documentsOfEntries (valuesOfMembers members) =
      members.map fun member => (member.1, member.2.toValue.toJson) := by
  induction members with
  | nil => rfl
  | cons member rest ih => rw [valuesOfMembers, documentsOfEntries, ih, List.map_cons]

theorem toJson_binary {x : Binary64} (finite : x.isFinite = true) :
    x.toJson = number (.binary x) := by
  rw [Binary64.toJson, if_pos finite]

/-- What is too large for a value becomes binary, which does not make it infinite. -/
theorem toJson_number {n : JsonNumber} (h : n.IsReadable) :
    n.toValue.toJson = number n.rounded := by
  cases n with
  | binary x => exact toJson_binary h
  | whole n =>
      obtain ⟨lower, upper⟩ := h
      unfold JsonNumber.toValue JsonNumber.rounded
      dsimp only
      by_cases small : n < 9223372036854775808
      · obtain ⟨m, same⟩ : ∃ m, Integer.ofInt? n = some m := ⟨_, dif_pos ⟨lower, small⟩⟩
        rw [same, if_pos small]
        exact congrArg (fun k => number (.whole k)) (Integer.ofInt?_eq_some_iff.mp same)
      · have beyond : Integer.ofInt? n = none :=
          Integer.ofInt?_eq_none_iff.mpr fun fits => small fits.2
        rw [beyond, if_neg small]
        apply toJson_binary
        exact isFinite_of_atMost (Binary64.atMost_ofInt (by omega) (by decide : 64 < 1024))

/-- A document comes back from its value with nothing changed but its largest whole numbers. -/
theorem toJson_toValue {document : Json} (h : document.NumbersAre JsonNumber.IsReadable) :
    document.toValue.toJson = document.mapNumbers JsonNumber.rounded := by
  induction h with
  | null | bool | string => rfl
  | number h => exact toJson_number h
  | array _ ih =>
      rw [toValue, Value.toJson, documentsOfItems_valuesOfItems, mapNumbers, mapItems_eq,
        List.map_congr_left ih]
  | object _ ih =>
      rw [toValue, Value.toJson, documentsOfEntries_valuesOfMembers, mapNumbers, mapMembers_eq,
        List.map_congr_left fun member hmember => by rw [ih member hmember]]

/-- A document comes back as it was just if its whole numbers are those of values. -/
theorem toJson_toValue_eq_self_iff {document : Json} (h : document.NumbersAre JsonNumber.IsReadable) :
    document.toValue.toJson = document ↔ document.NumbersAre JsonNumber.IsKept := by
  simp only [toJson_toValue h, mapNumbers_eq_self_iff, JsonNumber.rounded_eq_self_iff]

end Json

/-! ## Beside the SQL -/

namespace Check

theorem parameter_of_ofText? {text : String} {document : Json}
    (h : Json.ofText? text = some document) : parameter text = document.toValue := by
  rw [parameter, h]
  rfl

/-- What a check compiles is made of the template and the parameters that it is given. -/
theorem compile_of_run {options : Options} {compiled : Sql.Compiled}
    (ran : run options = .ok (.compiled compiled)) :
    ∃ spec params around, Specification.parse options.template = .ok spec ∧
      parameters options.params options.named = .ok params ∧
      spec.compile params around = .ok compiled := by
  obtain ⟨spec, parsed, ran⟩ := bind_eq_ok ran
  obtain ⟨params, given, ran⟩ := bind_eq_ok ran
  refine ⟨spec, params, ?_⟩
  cases hmode : options.mode with
  | validate =>
      rw [hmode] at ran
      cases ran
  | decide =>
      rw [hmode] at ran
      dsimp only at ran
      split at ran
      · cases ran
      · obtain ⟨document, -, ran⟩ := bind_eq_ok ran
        obtain ⟨satisfied, -, ran⟩ := bind_eq_ok ran
        cases ran
  | compile =>
      rw [hmode] at ran
      dsimp only at ran
      -- with a schema and without one
      split at ran <;>
      · obtain ⟨schema, -, ran⟩ := bind_eq_ok ran
        obtain ⟨sql, compiles, ran⟩ := bind_eq_ok ran
        cases ran
        exact ⟨_, mapError_eq_ok parsed, given, mapError_eq_ok compiles⟩

/-- The value that a placeholder takes is handed over where the placeholder stands in the tree. -/
theorem takes_of_compile {spec : Specification} {params : Parameters}
    {around : Sql.Surroundings} {compiled : Sql.Compiled}
    (h : spec.compile params around = .ok compiled) {index : Nat} {p : Placeholder}
    (slot : spec.tree.slots[index]? = some (.placeholder p)) :
    ∃ taken, p.Takes params taken ∧ compiled.parameters[index]? = some taken := by
  obtain ⟨tree, filled, compiles⟩ := bind_eq_ok h
  have fills : Node.Fills params spec.tree tree := by
    have bound := mapError_eq_ok filled
    rw [Specification.bind_eq] at bound
    exact Node.fills_of_bind bound
  have values := Sql.fill_slots_of_ofNode fills (mapError_eq_ok compiles)
  have found : (spec.tree.slots.map (·.fill params))[index]? = some (p.fill params) := by
    rw [List.getElem?_map, slot]
    rfl
  rw [values, List.getElem?_map, Option.map_eq_some_iff] at found
  obtain ⟨taken, there, same⟩ := found
  exact ⟨taken, Placeholder.fill_eq_ok_iff.mp same.symm, there⟩

/-- The outcome of a compiling check writes the document beside the SQL, for each placeholder that
its text is the parameter of: as a placeholder of its kind takes it, and with nothing changed but
its largest whole numbers where the placeholder takes all kinds. -/
def Writes (options : Options) (compiled : Sql.Compiled) (text : String) (document : Json) : Prop :=
  ∃ (spec : Specification) (params : Parameters) (documents : List Json),
    Specification.parse options.template = .ok spec ∧
    parameters options.params options.named = .ok params ∧
    (Outcome.compiled compiled).toJson =
      .ofMembers [("sql", .string compiled.sql), ("params", .array documents)] ∧
    ∀ (index : Nat) (p : Placeholder), spec.tree.slots[index]? = some (.placeholder p) →
      params.find? p.key = some (parameter text) →
        (∃ taken, p.kind.convert? document.toValue = some taken ∧
          documents[index]? = some taken.toJson) ∧
        (p.kind = .any → documents[index]? = some (document.mapNumbers JsonNumber.rounded))

theorem writes_of_run {options : Options} {compiled : Sql.Compiled}
    (ran : run options = .ok (.compiled compiled)) {text : String} {document : Json}
    (h : Json.ofText? text = some document) : Writes options compiled text document := by
  obtain ⟨spec, params, around, parsed, given, compiles⟩ := compile_of_run ran
  refine ⟨spec, params, compiled.parameters.map Value.toJson, parsed, given, rfl, ?_⟩
  intro index p slot present
  obtain ⟨taken, ⟨v, found, converted⟩, there⟩ := takes_of_compile compiles slot
  have same : v = document.toValue := by
    rw [present, parameter_of_ofText? h] at found
    exact (Option.some.inj found).symm
  rw [same] at converted
  have written : (compiled.parameters.map Value.toJson)[index]? = some taken.toJson := by
    rw [List.getElem?_map, there]
    rfl
  refine ⟨⟨taken, converted, written⟩, ?_⟩
  intro any
  rw [any] at converted
  cases converted
  rw [written, Json.toJson_toValue (Json.numbersAre_of_ofText? h)]

open Grammar in
/-- `$[?@.id == %s]` as the grammar derives it. -/
def idDerivation : Derivation .template :=
  .whole (.bracketed (.or (.and (.plain (.pair
    (.field .here ["id"] (by simp)) .equal (.atom (.placeholder ⟨.position 0, .any⟩)))) .andEnd)
    .orEnd))

/-- The template with its tree. -/
def idSpecification : Specification :=
  ⟨"$[?@.id == %s]", .between (.field .globalScope "id") .equal (.placeholder ⟨.position 0, .any⟩)⟩

theorem parse_idSpecification : Specification.parse "$[?@.id == %s]" = .ok idSpecification := by
  have tokenized : tokenize "$[?@.id == %s]" = .ok _ := rfl
  have read : Node.parse "$[?@.id == %s]" = .ok idSpecification.tree :=
    (parse_eq_ok_iff tokenized).mpr ⟨idDerivation, rfl, rfl⟩
  rw [Specification.parse, read]
  rfl

/-- Compiling the template with one parameter. -/
def idOptions (text : String) : Options :=
  ⟨"$[?@.id == %s]", .compile, none, [text], [], none, none⟩

theorem run_idOptions (text : String) :
    ∃ compiled, run (idOptions text) = .ok (.compiled compiled) := by
  obtain ⟨compiled, compiles⟩ : ∃ compiled,
      idSpecification.compile ⟨[parameter text], []⟩ .unknown = .ok compiled :=
    ⟨_, rfl⟩
  have parsed : (Specification.parse (idOptions text).template).mapError
      (Failure.specification ∘ .template) = .ok idSpecification := by
    rw [idOptions, parse_idSpecification]
    rfl
  refine ⟨compiled, ?_⟩
  unfold run
  rw [parsed]
  exact congrArg (fun result => (do
    let sql ← Except.mapError Failure.specification result
    return Outcome.compiled sql)) compiles

end Check

/-- A document that is read comes back from its value with its whole numbers from `2^63` on turned
into binary ones and nothing else changed. So it comes back as it was just if it has no such number;
and a parameter that is given as a document is written in the form that comes back. -/
theorem Json.comes_back_rounded {text : String} {document : Json}
    (h : ofText? text = some document) :
    document.toValue.toJson = document.mapNumbers JsonNumber.rounded ∧
      (document.toValue.toJson = document ↔ document.NumbersAre JsonNumber.IsKept) ∧
      ∀ (options : Check.Options) (compiled : Sql.Compiled),
        Check.run options = .ok (.compiled compiled) →
          Check.Writes options compiled text document :=
  have readable := numbersAre_of_ofText? h
  ⟨toJson_toValue readable, toJson_toValue_eq_self_iff readable,
    fun _ _ ran => Check.writes_of_run ran h⟩

namespace Json

/-- The last number that is kept and the first one that is not. -/
def limits : Json :=
  object [("ids", array [number (.whole 9223372036854775807), number (.whole 9223372036854775808)]),
    ("name", string "x")]

/-- Whether a document is the one with the two numbers. -/
def isLimits : Json → Bool
  | object [(ids, array [number last, number first]), (name, string x)] =>
    ids = "ids" && last = .whole 9223372036854775807 && first = .whole 9223372036854775808 &&
      name = "name" && x = "x"
  | _ => false

theorem eq_limits_of_isLimits {document : Json} (h : document.isLimits = true) :
    document = limits := by
  unfold isLimits at h
  split at h
  · simp only [Bool.and_eq_true, decide_eq_true_eq] at h
    obtain ⟨⟨⟨⟨rfl, rfl⟩, rfl⟩, rfl⟩, rfl⟩ := h
    rfl
  · cases h

/-- The text of the document, with its names in another order. -/
def limitsText : String :=
  "\x7b\"name\": \"x\", \"ids\": [9223372036854775807, 9223372036854775808]\x7d"

theorem ofText?_limitsText : ofText? limitsText = some limits := by
  have found : (ofText? limitsText).any isLimits = true := by decide +kernel
  obtain ⟨document, read, same⟩ := (Option.any_eq_true ..).mp found
  rw [read, eq_limits_of_isLimits same]

theorem toJson_toValue_limits_ne : limits.toValue.toJson ≠ limits := by
  intro same
  have readable := numbersAre_of_ofText? ofText?_limitsText
  cases (toJson_toValue_eq_self_iff readable).mp same with
  | object members =>
      cases members _ List.mem_cons_self with
      | array items =>
          cases items _ (List.mem_cons_of_mem _ List.mem_cons_self) with
          | number kept => exact absurd kept (by simp [JsonNumber.IsKept])

/-- Beside `id = $1` the second of the numbers is binary. -/
theorem comes_back_rounded_limits :
    ∃ text, ofText? text = some limits ∧
      limits.toValue.toJson = object [("ids", array [number (.whole 9223372036854775807),
          number (.binary (.ofInt 9223372036854775808))]), ("name", string "x")] ∧
      ¬limits.toValue.toJson = limits ∧
      ∃ compiled, Check.run (Check.idOptions text) = .ok (.compiled compiled) ∧
        Check.Writes (Check.idOptions text) compiled text limits := by
  obtain ⟨rounded, -, written⟩ := comes_back_rounded ofText?_limitsText
  obtain ⟨compiled, ran⟩ := Check.run_idOptions limitsText
  exact ⟨_, ofText?_limitsText, rounded, toJson_toValue_limits_ne, compiled, ran,
    written _ _ ran⟩

/-- Not every document that is read comes back as it was. -/
theorem document_is_rounded :
    ¬∀ (text : String) (document : Json), ofText? text = some document →
      document.toValue.toJson = document :=
  fun same => toJson_toValue_limits_ne (same _ _ ofText?_limitsText)

end Json

end DataFilter
