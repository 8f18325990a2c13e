/-!
# Computations that may fail

A computation in several steps succeeds if all of its steps do, and it fails as the first of them
that fails.
-/

namespace DataFilter

section Steps

variable {ε α β : Type} {x : Except ε α} {f : α → Except ε β}

/-- A computation succeeds if all of its steps do. -/
theorem bind_eq_ok {b : β} (h : x >>= f = .ok b) : ∃ a, x = .ok a ∧ f a = .ok b := by
  cases x with
  | error e => cases h
  | ok a => exact ⟨a, rfl, h⟩

theorem mapError_eq_ok {δ : Type} {g : ε → δ} {a : α} (h : x.mapError g = .ok a) : x = .ok a := by
  cases x with
  | error e => cases h
  | ok b =>
      cases h
      rfl

/-- What is made of a result fails as the result does. -/
theorem map_eq_error_iff {g : α → β} {e : ε} : x.map g = .error e ↔ x = .error e := by
  cases x <;> simp [Except.map]

theorem toOption_mapError {δ : Type} (g : ε → δ) (x : Except ε α) :
    (x.mapError g).toOption = x.toOption := by
  cases x <;> rfl

/-- Whether a computation succeeds, and with what, is told by its steps in turn. -/
theorem toOption_bind (x : Except ε α) (f : α → Except ε β) :
    (x >>= f).toOption = x.toOption.bind fun a => (f a).toOption := by
  cases x <;> rfl

/-- The failure of a computation, if it fails. -/
def failure? : Except ε α → Option ε
  | .ok _ => none
  | .error e => some e

theorem failure?_eq_some_iff {e : ε} : failure? x = some e ↔ x = .error e := by
  cases x <;> simp [failure?]

theorem failure?_eq_none_iff : failure? x = none ↔ ∃ a, x = .ok a := by
  cases x <;> simp [failure?]

/-- What is made of a result fails as the result does. -/
theorem failure?_map (x : Except ε α) (g : α → β) :
    failure? (do
      let a ← x
      return g a) = failure? x := by
  cases x <;> rfl

/-- What is made of two results fails as the first one does, or else as the second one. -/
theorem failure?_map₂ {γ : Type} (x : Except ε α) (y : Except ε β) (g : α → β → γ) :
    failure? (do
      let a ← x
      let b ← y
      return g a b) = (failure? x).or (failure? y) := by
  cases x with
  | error e => rfl
  | ok a => exact failure?_map y (g a)

/-- All failures of the computation are of this kind. -/
def OnlyFails (kind : ε → Prop) (x : Except ε α) : Prop := ∀ e, x = .error e → kind e

variable {kind : ε → Prop}

theorem onlyFails_ok (a : α) : OnlyFails kind (.ok a : Except ε α) := nofun

theorem onlyFails_error {e : ε} (h : kind e) : OnlyFails kind (.error e : Except ε α) := by
  rintro e' ⟨⟩
  exact h

/-- A computation fails as one of its steps does. -/
theorem OnlyFails.bind (first : OnlyFails kind x)
    (behind : ∀ a, x = .ok a → OnlyFails kind (f a)) : OnlyFails kind (x >>= f) := by
  cases x with
  | error e => exact onlyFails_error (first e rfl)
  | ok a => exact behind a rfl

theorem onlyFails_mapError {δ : Type} {g : ε → δ} {kind : δ → Prop} (h : ∀ e, kind (g e))
    (x : Except ε α) : OnlyFails kind (x.mapError g) := by
  cases x with
  | error e => exact onlyFails_error (h e)
  | ok a => exact onlyFails_ok a

end Steps

end DataFilter
