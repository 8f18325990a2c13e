import DataFilter.Proofs.Template.Grammar

/-!
# Running the rules of the grammar

How a rule runs, step by step: the facts about sequences, single tokens and references from which
both directions of the correspondence with derivations are put together.
-/

namespace DataFilter.Grammar

section Sequence

variable {α β : Type} {x : Rule α} {f : α → Rule β}

theorem bind_apply {tokens rest : List Token} {a : α} (h : x tokens = .ok (a, rest)) :
    (x >>= f) tokens = f a rest := by
  show Except.bind (x tokens) _ = _
  rw [h]
  rfl

theorem exists_of_bind {tokens rest : List Token} {b : β} (h : (x >>= f) tokens = .ok (b, rest)) :
    ∃ a middle, x tokens = .ok (a, middle) ∧ f a middle = .ok (b, rest) := by
  change Except.bind (x tokens) _ = _ at h
  cases hx : x tokens with
  | error e => rw [hx] at h; cases h
  | ok found => rw [hx] at h; exact ⟨found.1, found.2, rfl, h⟩

end Sequence

theorem expect_cons (token : Token) (rest : List Token) :
    expect token (token :: rest) = .ok ((), rest) := by
  simp [expect]

theorem eq_cons_of_expect {token : Token} {tokens rest : List Token} {u : Unit}
    (h : expect token tokens = .ok (u, rest)) : tokens = token :: rest := by
  unfold expect at h
  split at h
  · split at h
    · rename_i first more hfirst
      cases h
      rw [hfirst]
    · cases h
  · cases h

/-- A reference needs a name. -/
theorem access_nameless (elementUnary : Rule Node) (root : Node) {tokens rest : List Token}
    (h : names tokens = .ok ([], rest)) :
    access elementUnary root tokens = .error ⟨Token.dot.describe, rest⟩ := by
  unfold access
  rw [bind_apply h, bind_apply (x := get) rfl]
  rfl

/-- Behind a path, an opening bracket decides whether a field or a collection is meant. -/
theorem access_apply (elementUnary : Rule Node) (root : Node) {path : List String}
    (named : path ≠ []) {tokens rest : List Token} (h : names tokens = .ok (path, rest)) :
    access elementUnary root tokens =
      if rest.head? = some .openBracket then
        (elementTest elementUnary >>= fun predicate =>
          pure (.collection (path.foldl .object root) predicate)) rest
      else .ok (.field (path.dropLast.foldl .object root) (path.getLast named), rest) := by
  unfold access
  rw [bind_apply h, bind_apply (x := get) rfl, List.getLast?_eq_some_getLast named]
  cases rest with
  | nil => rfl
  | cons token rest => cases token <;> rfl

section Chain

variable {item : Rule Node} {separator : Token} {join : Node → Node → Node}

/-- A chain is its first item, and then the items behind separators. -/
theorem chain_apply {tokens rest : List Token} {first : Node}
    (h : item tokens = .ok (first, rest)) :
    chain item separator join tokens = moreItems item separator join rest.length first rest := by
  unfold chain
  rw [bind_apply h]
  rfl

/-- Behind a separator comes an item. -/
theorem moreItems_step (count : Nat) (left : Node) (rest : List Token) :
    moreItems item separator join (count + 1) left (separator :: rest) =
      (item >>= fun right => moreItems item separator join count (join left right)) rest := by
  simp only [moreItems, if_true]
  rfl

end Chain

theorem unary_bang (count : Nat) (inTest : Bool) (rest : List Token) :
    unary (count + 1) inTest (.bang :: rest) =
      (unary count inTest >>= fun operand => pure (.not operand)) rest := rfl

theorem unary_openParen (count : Nat) (inTest : Bool) (rest : List Token) :
    unary (count + 1) inTest (.openParen :: rest) =
      (condition (unary count inTest) >>= fun inner => do expect .closeParen; pure inner) rest := rfl

/-- What begins with neither mark is a comparison. -/
theorem unary_of_head (count : Nat) (inTest : Bool) {tokens : List Token}
    (bang : tokens.head? ≠ some .bang) (paren : tokens.head? ≠ some .openParen) :
    unary (count + 1) inTest tokens = comparison (unary count true) inTest tokens := by
  cases tokens with
  | nil => rfl
  | cons token rest =>
      cases token <;> first | exact absurd rfl bang | exact absurd rfl paren | rfl

end DataFilter.Grammar
