import DataFilter.Proofs.Node.Binding

/-!
# Every placeholder and nothing else

Binding succeeds just if each placeholder of the tree takes its parameter, wherever it stands, below
the scopes of references included; and then it has replaced each of them by the value that it takes.
Else it fails as the first placeholder does that takes none. Both are told by one list, the
placeholders from left to right: `failure?_bind` says that binding fails just as that list does.
-/

namespace DataFilter

/-! ## One placeholder -/

/-- The parameter with this place or name, if it is there. -/
def Parameters.find? (params : Parameters) : PlaceholderKey → Option Value
  | .position index => params.positional[index]?
  | .name name => params.named.get? name

/-- The failure that there is no parameter with this place or name. -/
def PlaceholderKey.missing : PlaceholderKey → BindError
  | .position index => .missingPositional index
  | .name wanted => .missingNamed wanted

namespace Placeholder

variable {p : Placeholder} {params : Parameters}

/-- The parameter of the placeholder is there, and the placeholder takes it as this value. -/
def Takes (p : Placeholder) (params : Parameters) (taken : Value) : Prop :=
  ∃ v, params.find? p.key = some v ∧ p.kind.convert? v = some taken

/-- The parameter of the placeholder is missing, or it is there and of another kind. -/
inductive Refuses (p : Placeholder) (params : Parameters) : BindError → Prop where
  | missing (absent : params.find? p.key = none) : Refuses p params p.key.missing
  | conversion {v : Value} (there : params.find? p.key = some v)
      (other : p.kind.convert? v = none) : Refuses p params (.conversion p v.typeName)

theorem get_eq (p : Placeholder) (params : Parameters) :
    params.get p = match params.find? p.key with
      | some v => .ok v
      | none => .error p.key.missing := by
  obtain ⟨key, kind⟩ := p
  cases key with
  | position index =>
      show (match params.positional[index]? with | some v => _ | none => _) =
        match params.positional[index]? with | some v => _ | none => _
      cases params.positional[index]? <;> rfl
  | name name =>
      show (match params.named.get? name with | some v => _ | none => _) =
        match params.named.get? name with | some v => _ | none => _
      cases params.named.get? name <;> rfl

theorem fill_eq (p : Placeholder) (params : Parameters) :
    p.fill params = match params.find? p.key with
      | none => .error p.key.missing
      | some v =>
        match p.kind.convert? v with
        | some taken => .ok taken
        | none => .error (.conversion p v.typeName) := by
  unfold fill
  rw [get_eq]
  cases params.find? p.key with
  | none => rfl
  | some v =>
      show (match p.kind.convert? v with | some taken => _ | none => _) =
        match p.kind.convert? v with | some taken => _ | none => _
      cases p.kind.convert? v <;> rfl

/-- A placeholder is filled by its parameter, converted. -/
theorem toOption_fill (p : Placeholder) (params : Parameters) :
    (p.fill params).toOption = (params.find? p.key).bind p.kind.convert? := by
  rw [fill_eq]
  cases params.find? p.key with
  | none => rfl
  | some v =>
      show (match p.kind.convert? v with | some taken => _ | none => _ : Except _ _).toOption =
        p.kind.convert? v
      cases p.kind.convert? v <;> rfl

theorem fill_eq_ok_iff {taken : Value} : p.fill params = .ok taken ↔ p.Takes params taken := by
  rw [fill_eq, Takes]
  cases params.find? p.key with
  | none => simp
  | some v =>
      simp only [Option.some.injEq, exists_eq_left']
      cases p.kind.convert? v <;> simp

theorem fill_eq_error_iff {e : BindError} : p.fill params = .error e ↔ p.Refuses params e := by
  rw [fill_eq]
  constructor
  · intro h
    cases there : params.find? p.key with
    | none =>
        rw [there] at h
        cases h
        exact .missing there
    | some v =>
        rw [there] at h
        cases taken : p.kind.convert? v with
        | none =>
            simp only [taken] at h
            cases h
            exact .conversion there taken
        | some w =>
            simp only [taken] at h
            cases h
  · intro h
    cases h with
    | missing absent => rw [absent]
    | conversion there other => simp only [there, other]

end Placeholder

namespace Node

/-! ## Replacing -/

/-- The tree with these values in the place of its placeholders, and everything else as it is. -/
def replacing (values : Placeholder → Value) : Node → Node
  | value (.placeholder p) => literal (values p)
  | value (.literal v) => literal v
  | globalScope => globalScope
  | item => item
  | object parent name => object (parent.replacing values) name
  | field scope name => field (scope.replacing values) name
  | collection parent predicate =>
    collection (parent.replacing values) (predicate.replacing values)
  | prefixed op operand grouping => prefixed op (operand.replacing values) grouping
  | infixed left op right grouping =>
    infixed (left.replacing values) op (right.replacing values) grouping
  | postfixed operand op grouping => postfixed (operand.replacing values) op grouping

/-- Nothing is left of the placeholders that were replaced. -/
theorem placeholders_replacing (tree : Node) (values : Placeholder → Value) :
    (tree.replacing values).placeholders = [] := by
  induction tree with
  | value operand => cases operand <;> rfl
  | globalScope => rfl
  | item => rfl
  | object parent name ih => exact ih
  | field scope name ih => exact ih
  | collection parent predicate ihs ihp =>
      rw [replacing, placeholders_collection, ihs, ihp]
      rfl
  | prefixed op operand grouping ih => exact ih
  | infixed left op right grouping ihl ihr =>
      rw [replacing, placeholders_infixed, ihl, ihr]
      rfl
  | postfixed operand op grouping ih => exact ih

/-! ## Binding -/

section Binding

variable {tree : Node} {params : Parameters}

/-- If every placeholder is filled, binding replaces them by what fills them. -/
theorem bind_eq_replacing {values : Placeholder → Value}
    (filled : ∀ p ∈ tree.placeholders, p.fill params = .ok (values p)) :
    tree.bind params = .ok (tree.replacing values) := by
  induction tree with
  | value operand =>
      cases operand with
      | literal v => rfl
      | placeholder p =>
          rw [bind, filled p List.mem_cons_self]
          rfl
  | globalScope => rfl
  | item => rfl
  | object parent name ih =>
      rw [bind, ih filled]
      rfl
  | field scope name ih =>
      rw [bind, ih filled]
      rfl
  | collection parent predicate ihs ihp =>
      rw [placeholders_collection] at filled
      obtain ⟨first, second⟩ := List.forall_mem_append.mp filled
      rw [bind, ihs first, ihp second]
      rfl
  | prefixed op operand grouping ih =>
      rw [bind, ih filled]
      rfl
  | infixed left op right grouping ihl ihr =>
      rw [placeholders_infixed] at filled
      obtain ⟨first, second⟩ := List.forall_mem_append.mp filled
      rw [bind, ihl first, ihr second]
      rfl
  | postfixed operand op grouping ih =>
      rw [bind, ih filled]
      rfl

/-- Binding fails as the first placeholder does that is not filled. -/
theorem failure?_bind (tree : Node) (params : Parameters) :
    failure? (tree.bind params) =
      tree.placeholders.findSome? fun p => failure? (p.fill params) := by
  induction tree with
  | value operand =>
      cases operand with
      | literal v => rfl
      | placeholder p =>
          show failure? (p.fill params >>= _) = List.findSome? _ [p]
          rw [List.findSome?_singleton]
          exact failure?_map (p.fill params) literal
  | globalScope => rfl
  | item => rfl
  | object parent name ih => exact (failure?_map (parent.bind params) _).trans ih
  | field scope name ih => exact (failure?_map (scope.bind params) _).trans ih
  | collection parent predicate ihs ihp =>
      rw [placeholders_collection, List.findSome?_append, ← ihs, ← ihp]
      exact failure?_map₂ (parent.bind params) (predicate.bind params) _
  | prefixed op operand grouping ih => exact (failure?_map (operand.bind params) _).trans ih
  | infixed left op right grouping ihl ihr =>
      rw [placeholders_infixed, List.findSome?_append, ← ihl, ← ihr]
      exact failure?_map₂ (left.bind params) (right.bind params) _
  | postfixed operand op grouping ih => exact (failure?_map (operand.bind params) _).trans ih

/-- Binding succeeds just if every placeholder is filled. -/
theorem exists_bind_eq_ok_iff :
    (∃ bound, tree.bind params = .ok bound) ↔
      ∀ p ∈ tree.placeholders, ∃ taken, p.Takes params taken := by
  rw [← failure?_eq_none_iff, failure?_bind, List.findSome?_eq_none_iff]
  simp only [failure?_eq_none_iff, Placeholder.fill_eq_ok_iff]

/-- What binding makes of a tree. -/
theorem bind_eq_ok_iff {bound : Node} :
    tree.bind params = .ok bound ↔
      ∃ values : Placeholder → Value, (∀ p ∈ tree.placeholders, p.Takes params (values p)) ∧
        bound = tree.replacing values := by
  constructor
  · intro h
    have taken := exists_bind_eq_ok_iff.mp ⟨bound, h⟩
    -- one function for all placeholders: what fills each of them
    let values (p : Placeholder) : Value := (p.fill params).toOption.getD .null
    have filled : ∀ p ∈ tree.placeholders, p.fill params = .ok (values p) := by
      intro p member
      obtain ⟨v, takes⟩ := taken p member
      have filled := Placeholder.fill_eq_ok_iff.mpr takes
      rw [filled, show values p = v by simp only [values, filled]; rfl]
    refine ⟨values, ?_, ?_⟩
    · intro p member
      exact Placeholder.fill_eq_ok_iff.mp (filled p member)
    · rw [bind_eq_replacing filled] at h
      exact (Except.ok.inj h).symm
  · rintro ⟨values, takes, rfl⟩
    apply bind_eq_replacing
    intro p member
    exact Placeholder.fill_eq_ok_iff.mpr (takes p member)

/-- The first placeholder that is not filled tells the failure. -/
theorem bind_eq_error_iff {e : BindError} :
    tree.bind params = .error e ↔
      ∃ front p back, tree.placeholders = front ++ p :: back ∧
        (∀ q ∈ front, ∃ taken, q.Takes params taken) ∧ p.Refuses params e := by
  rw [← failure?_eq_some_iff, failure?_bind, List.findSome?_eq_some_iff]
  simp only [failure?_eq_none_iff, failure?_eq_some_iff, Placeholder.fill_eq_ok_iff,
    Placeholder.fill_eq_error_iff]
  constructor
  · rintro ⟨front, p, back, split, refuses, takes⟩
    exact ⟨front, p, back, split, takes, refuses⟩
  · rintro ⟨front, p, back, split, takes, refuses⟩
    exact ⟨front, p, back, split, refuses, takes⟩

end Binding

/-- Binding replaces exactly the placeholders. It succeeds just if each of them takes its parameter;
then the result is the tree with what they take in their places, no placeholder is left, and binding
it again, with whatever parameters, leaves it as it is. Else it fails as the first of them does that
takes none, since its parameter is missing or of another kind. A specification, which does not bind
a tree without placeholders, comes to the same. -/
theorem bind_replaces_placeholders (tree : Node) (params : Parameters) :
    ((∃ bound, tree.bind params = .ok bound) ↔
      ∀ p ∈ tree.placeholders, ∃ taken, p.Takes params taken) ∧
    (∀ bound, tree.bind params = .ok bound →
      (∃ values : Placeholder → Value, (∀ p ∈ tree.placeholders, p.Takes params (values p)) ∧
        bound = tree.replacing values) ∧
      bound.placeholders = [] ∧ bound.hasPlaceholders = false ∧
      ∀ others, bound.bind others = .ok bound) ∧
    (∀ e, tree.bind params = .error e ↔
      ∃ front p back, tree.placeholders = front ++ p :: back ∧
        (∀ q ∈ front, ∃ taken, q.Takes params taken) ∧ p.Refuses params e) ∧
    ∀ template, Specification.bind ⟨template, tree⟩ params = tree.bind params := by
  refine ⟨exists_bind_eq_ok_iff, ?_, ?_, ?_⟩
  · intro bound h
    obtain ⟨values, takes, rfl⟩ := bind_eq_ok_iff.mp h
    have none_left := placeholders_replacing tree values
    have bound := hasPlaceholders_eq_false_iff.mpr none_left
    exact ⟨⟨values, takes, rfl⟩, none_left, bound, bind_of_hasPlaceholders_eq_false bound⟩
  · intro e
    exact bind_eq_error_iff
  · intro template
    exact Specification.bind_eq ⟨template, tree⟩ params

/-- A tree in which a reference hangs from a placeholder: the field `a` of `%s`, and
`$.b == %(n)d`. -/
def hiddenTree : Node :=
  .and (.field (.placeholder ⟨.position 0, .any⟩) "a")
    [.between (.field .globalScope "b") .equal (.placeholder ⟨.name "n", .integer⟩)]

/-- The placeholder below the reference is filled, and it is the first one that fails. -/
theorem bind_replaces_placeholders_hiddenTree :
    (∃ bound, hiddenTree.bind ⟨[.text "x"], [("n", .integer 3)]⟩ = .ok bound ∧
      bound.placeholders = [] ∧ ∀ others, bound.bind others = .ok bound) ∧
    hiddenTree.bind ⟨[.text "x"], [("n", .text "3")]⟩ =
      .error (.conversion ⟨.name "n", .integer⟩ "string") ∧
    hiddenTree.bind ⟨[], [("n", .text "3")]⟩ = .error (.missingPositional 0) := by
  obtain ⟨-, result, -, -⟩ :=
    bind_replaces_placeholders hiddenTree ⟨[.text "x"], [("n", .integer 3)]⟩
  obtain ⟨-, none_left, -, again⟩ := result _ rfl
  obtain ⟨-, -, later, -⟩ :=
    bind_replaces_placeholders hiddenTree ⟨[.text "x"], [("n", .text "3")]⟩
  obtain ⟨-, -, first, -⟩ := bind_replaces_placeholders hiddenTree ⟨[], [("n", .text "3")]⟩
  refine ⟨⟨_, rfl, none_left, again⟩, ?_, ?_⟩
  · refine (later _).mpr ⟨[⟨.position 0, .any⟩], ⟨.name "n", .integer⟩, [], rfl, ?_, ?_⟩
    · intro q member
      obtain rfl := List.mem_singleton.mp member
      exact ⟨.text "x", .text "x", rfl, rfl⟩
    · show Placeholder.Refuses _ _ (.conversion _ (Value.text "3").typeName)
      exact .conversion rfl rfl
  · exact (first _).mpr ⟨[], ⟨.position 0, .any⟩, [⟨.name "n", .integer⟩], rfl, nofun,
      .missing rfl⟩

end Node

end DataFilter
