import DataFilter.Proofs.Node.Binding
import DataFilter.Proofs.Sql.Parameters

/-!
# Values do not influence the text

Two trees that differ in nothing but the values of their literals have the same SQL. Each step of
compiling one of them is followed by the same step of compiling the other: what a step shows, apart
from values, depends on nothing but how many values have been written and how many tests have been
named. What a failure says may quote a value, where a chain of scopes runs through one, but that it
fails and of which kind the failure is does not depend on values.
-/

namespace DataFilter.Sql

/-! ## What a step shows -/

/-- The error without the path that it shows. -/
def CompileError.withoutPath : CompileError → CompileError
  | scopeAsValue _ => scopeAsValue ""
  | e => e

/-- The output without its values. -/
def Output.shape (out : Output) : Nat × Nat := (out.parameters.length, out.aliases)

namespace Step

variable {α β : Type} {x y : Step α} {f g : α → Step β}

/-- The result of a step without values. -/
def shown : Except CompileError (α × Output) → Except CompileError (α × Nat × Nat)
  | .ok (a, out) => .ok (a, out.shape)
  | .error e => .error e.withoutPath

/-- Two steps show the same behind outputs that differ in values. -/
def Alike (x y : Step α) : Prop :=
  ∀ out out', out.shape = out'.shape → shown (x out) = shown (y out')

theorem alike_pure (a : α) : Alike (pure a) (pure a) := by
  intro out out' same
  exact congrArg (fun shape => Except.ok (a, shape)) same

theorem alike_throw {e e' : CompileError} (h : e.withoutPath = e'.withoutPath) :
    Alike (throw e : Step α) (throw e') := by
  intro out out' _
  exact congrArg Except.error h

theorem Alike.bind (h : Alike x y) (h' : ∀ a, Alike (f a) (g a)) : Alike (x >>= f) (y >>= g) := by
  intro out out' same
  have first := h out out' same
  show shown (Except.bind (x out) fun r => f r.1 r.2) =
    shown (Except.bind (y out') fun r => g r.1 r.2)
  -- both steps fail or neither does
  rcases hx : x out with e | ⟨a, middle⟩ <;> rcases hy : y out' with e' | ⟨a', middle'⟩ <;>
    rw [hx, hy] at first
  · exact congrArg Except.error (Except.error.inj first)
  · cases first
  · cases first
  · obtain ⟨rfl, agree⟩ := Prod.mk.inj (Except.ok.inj first)
    exact h' a middle middle' agree

theorem alike_forM {names : List String} {step : String → Step Unit}
    (h : ∀ name, Alike (step name) (step name)) : Alike (names.forM step) (names.forM step) := by
  induction names with
  | nil => exact alike_pure ()
  | cons name names ih => exact (h name).bind fun _ => ih

theorem alike_mapM {keys : List α} (h : ∀ key, Alike (f key) (f key)) :
    Alike (keys.mapM f) (keys.mapM f) := by
  induction keys with
  | nil => exact alike_pure []
  | cons key keys ih =>
      rw [List.mapM_cons]
      exact (h key).bind fun _ => ih.bind fun _ => alike_pure _

end Step

/-! ## No step looks at a value -/

open Sql.Step

theorem alike_checkIdentifier (name : String) :
    Alike (checkIdentifier name) (checkIdentifier name) := by
  unfold checkIdentifier
  by_cases valid : isIdentifier name = true
  · rw [if_pos valid]
    exact alike_pure ()
  · rw [if_neg valid]
    exact alike_throw rfl

/-- The parameter is known by its number. -/
theorem alike_parameter (v w : Value) : Alike (parameter v) (parameter w) := by
  intro out out' same
  obtain ⟨count, aliases⟩ := Prod.mk.inj same
  have longer : (out.parameters ++ [v]).length = (out'.parameters ++ [w]).length := by
    rw [List.length_append, List.length_append, count]
    rfl
  show Except.ok (Condition.parameter _, (_, out.aliases)) =
    Except.ok (Condition.parameter _, (_, out'.aliases))
  rw [longer, aliases]

theorem alike_freshAlias (stem : String) : Alike (freshAlias stem) (freshAlias stem) := by
  intro out out' same
  obtain ⟨count, aliases⟩ := Prod.mk.inj same
  show Except.ok (stem ++ "_" ++ toString (out.aliases + 1), (_, out.aliases + 1)) =
    Except.ok (stem ++ "_" ++ toString (out'.aliases + 1), (_, out'.aliases + 1))
  rw [count, aliases]

namespace Surroundings

variable {around : Surroundings} {a b : Node}

theorem alike_base (h : a.root? = b.root?) : Alike (around.base a) (around.base b) := by
  unfold base
  rw [h]
  split
  · exact alike_pure _
  · exact alike_pure _
  · exact alike_throw rfl
  · exact alike_throw rfl

theorem alike_reference (h : a.root? = b.root? ∧ a.path = b.path) (name : Option String) :
    Alike (around.reference a name) (around.reference b name) := by
  obtain ⟨root, path⟩ := h
  unfold reference
  rw [path]
  refine (alike_base root).bind fun base => ?_
  exact (alike_forM alike_checkIdentifier).bind fun _ => alike_pure _

theorem alike_owner (h : a.root? = b.root?) : Alike (around.owner a) (around.owner b) := by
  unfold owner
  rw [h]
  split
  · exact alike_pure _
  · exact alike_throw rfl
  · exact alike_pure _

theorem alike_joins (relation : Relation) (owner : Row) (name : String) :
    Alike (joins relation owner name) (joins relation owner name) := by
  unfold joins
  split
  · exact alike_pure _
  · refine (alike_checkIdentifier _).bind fun _ => alike_mapM fun key => ?_
    exact (alike_checkIdentifier _).bind fun _ =>
      (alike_checkIdentifier _).bind fun _ => alike_pure _

theorem alike_collection (h : a.root? = b.root? ∧ a.path = b.path) (name : String) :
    Alike (around.collection a name) (around.collection b name) := by
  unfold collection
  refine (alike_owner h.1).bind fun owner => ?_
  split
  · refine (alike_checkIdentifier _).bind fun _ => (alike_checkIdentifier _).bind fun _ => ?_
    exact (alike_freshAlias _).bind fun _ => (alike_joins _ _ _).bind fun _ => alike_pure _
  · refine (alike_reference h none).bind fun _ => ?_
    exact (alike_freshAlias _).bind fun _ => alike_pure _

end Surroundings

/-- Alike trees are compiled alike. -/
theorem alike_compile {a b : Node} (h : a.Alike b) (around : Surroundings) :
    Alike (compile around a) (compile around b) := by
  induction h generalizing around with
  | literal v w => exact alike_parameter v w
  | globalScope => exact alike_throw rfl
  | item => exact alike_throw rfl
  | object => exact alike_throw rfl
  | field scope name =>
      exact (Surroundings.alike_reference scope.chain (some name)).bind fun _ => alike_pure _
  | collection parent _ _ ih =>
      -- only what hangs from a name can be ranged over
      cases parent with
      | object scope name =>
          have chain := (Node.Alike.object scope name).chain
          refine (Surroundings.alike_collection chain name).bind fun test => ?_
          exact (ih _).bind fun _ => alike_pure _
      | _ => exact alike_throw rfl
  | prefixed op _ grouping ih => exact (ih around).bind fun _ => alike_pure _
  | infixed _ op _ grouping ihl ihr =>
      exact (ihl around).bind fun _ => (ihr around).bind fun _ => alike_pure _
  | postfixed _ op grouping ih => exact (ih around).bind fun _ => alike_pure _

/-! ## Two uses of a specification -/

/-- Two results of compiling: the same text, and as many values; or failures of one kind. -/
inductive SameText : Except CompileError Compiled → Except CompileError Compiled → Prop where
  | compiled {x y : Compiled} (sql : x.sql = y.sql)
      (length : x.parameters.length = y.parameters.length) : SameText (.ok x) (.ok y)
  | failed {e e' : CompileError} (kind : e.withoutPath = e'.withoutPath) :
      SameText (.error e) (.error e')

theorem sameText_ofNode {a b : Node} (h : a.Alike b) (around : Surroundings) :
    SameText (ofNode around a) (ofNode around b) := by
  have same := alike_compile h around ⟨[], 0⟩ ⟨[], 0⟩ rfl
  unfold ofNode
  rcases ha : (compile around a).run ⟨[], 0⟩ with e | ⟨condition, out⟩ <;>
    rcases hb : (compile around b).run ⟨[], 0⟩ with e' | ⟨condition', out'⟩ <;>
    rw [StateT.run] at ha hb <;> rw [ha, hb] at same
  · exact .failed (Except.error.inj same)
  · cases same
  · cases same
  · obtain ⟨rfl, agree⟩ := Prod.mk.inj (Except.ok.inj same)
    exact .compiled rfl (Prod.mk.inj agree).1

/-- The values that are handed over are those of the slots of the tree, in their order. -/
theorem fill_slots_of_ofNode {params : Parameters} {tree bound : Node}
    (fills : Node.Fills params tree bound) {around : Surroundings} {compiled : Compiled}
    (h : ofNode around bound = .ok compiled) :
    tree.slots.map (·.fill params) = compiled.parameters.map .ok := by
  obtain ⟨condition, out, compiles, rfl⟩ := compiles_of_ofNode h
  obtain ⟨values, slots, filled⟩ := fills.slots
  have literals : out.parameters.map Operand.literal = values.map Operand.literal :=
    compiles.slots.trans slots
  have same : out.parameters = values :=
    List.map_injective_iff.mpr (fun _ _ => Operand.literal.inj) literals
  rw [filled, ← same]

/-- A slot that is no placeholder has the same value for all parameters. -/
theorem getElem?_of_fill_slots {params : Parameters} {slots : List Operand} {values : List Value}
    (filled : slots.map (·.fill params) = values.map .ok) {index : Nat} {v : Value}
    (fixed : slots[index]? = some (.literal v)) : values[index]? = some v := by
  have slot : (slots.map (·.fill params))[index]? = some (.ok v) := by
    rw [List.getElem?_map, fixed]
    rfl
  rw [filled, List.getElem?_map, Option.map_eq_some_iff] at slot
  obtain ⟨w, found, ⟨⟩⟩ := slot
  exact found

end DataFilter.Sql

namespace DataFilter.Specification

open Sql

/-- Two sets of parameters lead to the same text, with as many values, which fill the same slots and
so are the same wherever the tree has a literal; or neither leads to any text, for the same
reason. -/
def CompilesAlike (spec : Specification) (around : Surroundings) (p q : Parameters) : Prop :=
  (∃ x y, spec.compile p around = .ok x ∧ spec.compile q around = .ok y ∧ x.sql = y.sql ∧
    x.parameters.length = y.parameters.length ∧
    spec.tree.slots.map (·.fill p) = x.parameters.map .ok ∧
    spec.tree.slots.map (·.fill q) = y.parameters.map .ok ∧
    ∀ (index : Nat) (v : Value), spec.tree.slots[index]? = some (.literal v) →
      x.parameters[index]? = some v ∧ y.parameters[index]? = some v) ∨
  ∃ e e', spec.compile p around = .error (.compilation e) ∧
    spec.compile q around = .error (.compilation e') ∧ e.withoutPath = e'.withoutPath

/-- Parameters never influence the text, wherever two sets of them fill a specification. -/
theorem compilesAlike_of_bind (spec : Specification) (around : Surroundings) {p q : Parameters}
    {a b : Node} (ha : spec.bind p = .ok a) (hb : spec.bind q = .ok b) :
    spec.CompilesAlike around p q := by
  have first : Node.Fills p spec.tree a := Node.fills_of_bind (spec.bind_eq p ▸ ha)
  have second : Node.Fills q spec.tree b := Node.fills_of_bind (spec.bind_eq q ▸ hb)
  have compileFirst : spec.compile p around = (ofNode around a).mapError .compilation := by
    rw [Specification.compile, ha]
    rfl
  have compileSecond : spec.compile q around = (ofNode around b).mapError .compilation := by
    rw [Specification.compile, hb]
    rfl
  rw [CompilesAlike, compileFirst, compileSecond]
  -- both results are of the same kind, and the values of each can be read off its own tree
  have same := sameText_ofNode (first.alike second) around
  generalize hx : ofNode around a = resultFirst, hy : ofNode around b = resultSecond at same ⊢
  cases same with
  | @compiled x y sql length =>
      have filledFirst := fill_slots_of_ofNode first hx
      have filledSecond := fill_slots_of_ofNode second hy
      refine .inl ⟨x, y, rfl, rfl, sql, length, filledFirst, filledSecond, ?_⟩
      intro index v fixed
      exact ⟨getElem?_of_fill_slots filledFirst fixed, getElem?_of_fill_slots filledSecond fixed⟩
  | failed kind => exact .inr ⟨_, _, rfl, rfl, kind⟩

/-- `$.note == … && $.Lines[*][?(@.qty > … || @.qty == true)]` -/
def noteTree (note quantity : Operand) : Node :=
  .between (.between (.field .globalScope "note") .equal (.value note)) .and
    (.collection (.object .globalScope "Lines")
      (.between (.between (.field .item "qty") .greaterThan (.value quantity)) .or
        (.between (.field .item "qty") .equal (.literal (.boolean true)))))

/-- The tree with `%s` and `%d` in its gaps. -/
def noteSpecification : Specification :=
  .ofTree (noteTree (.placeholder ⟨.position 0, .any⟩) (.placeholder ⟨.position 1, .integer⟩))

/-- Neither a quotation mark nor NULL changes the text. -/
theorem compilesAlike_noteSpecification :
    noteSpecification.bind ⟨[.text "x' OR '1' = '1", .integer 3], []⟩ =
        .ok (noteTree (.literal (.text "x' OR '1' = '1")) (.literal (.integer 3))) ∧
      noteSpecification.bind ⟨[.array [.boolean false], .null], []⟩ =
        .ok (noteTree (.literal (.array [.boolean false])) (.literal .null)) ∧
      noteSpecification.CompilesAlike (.ofTable orderSchema "orders")
        ⟨[.text "x' OR '1' = '1", .integer 3], []⟩ ⟨[.array [.boolean false], .null], []⟩ :=
  ⟨rfl, rfl, compilesAlike_of_bind _ _ rfl rfl⟩

end DataFilter.Specification
