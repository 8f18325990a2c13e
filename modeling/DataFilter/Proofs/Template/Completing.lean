import DataFilter.Proofs.Template.Lookahead

/-!
# What a rule took before it failed can be completed

A rule that fails has taken off tokens that go on to a derivation: `Completes` says that a few fixed
tokens behind them are enough. So a mismatch lies at the first token that fits nowhere, since the
rules take off nothing but what fits. `exists_completion` puts this together with the look-ahead: the
tokens before a mismatch are those of a template up to there, and with the next one they are not.
-/

namespace DataFilter.Grammar

/-! ## Completions -/

/-- The tokens that completions are made of. -/
def fillers : List Token :=
  [.dollar, .dot, .identifier "a", .star, .question, .null, .openBracket, .closeBracket, .closeParen]

def IsFilling (tokens : List Token) : Prop := ∀ token ∈ tokens, token ∈ fillers

instance (tokens : List Token) : Decidable (IsFilling tokens) :=
  inferInstanceAs (Decidable (∀ token ∈ tokens, token ∈ fillers))

theorem isFilling_nil : IsFilling [] := by decide

theorem IsFilling.append {front back : List Token} (h : IsFilling front) (h' : IsFilling back) :
    IsFilling (front ++ back) :=
  List.forall_mem_append.mpr ⟨h, h'⟩

/-- The tokens are those of a derivation. -/
def IsOf (c : Category) (tokens : List Token) : Prop := ∃ d : Derivation c, d.tokens = tokens

theorem Derives.isOf {c : Category} {inTest : Bool} {tokens : List Token} {meaning : Meaning c}
    (h : Derives c inTest tokens meaning) : IsOf c tokens :=
  have ⟨d, spelled, _⟩ := h
  ⟨d, spelled⟩

/-- A rule that fails has taken off tokens of which `P` holds when they are completed. -/
def Completes {α : Type} (rule : Rule α) (P : List Token → Prop) : Prop :=
  ∀ tokens e, rule tokens = .error e →
    ∃ front more, tokens = front ++ e.remaining ∧ IsFilling more ∧ P (front ++ more)

/-! ## Rules in sequence -/

section Sequence

variable {α β : Type} {x : Rule α} {f : α → Rule β} {P Q : List Token → Prop}

theorem error_of_bind {tokens : List Token} {e : Mismatch} (h : (x >>= f) tokens = .error e) :
    x tokens = .error e ∨ ∃ a middle, x tokens = .ok (a, middle) ∧ f a middle = .error e := by
  cases result : x tokens with
  | error e' =>
      rw [bind_error result] at h
      cases h
      exact .inl rfl
  | ok found =>
      rw [bind_apply result] at h
      exact .inr ⟨found.1, found.2, rfl, h⟩

/-- Where the first rule fails, its tokens are completed, and then something is put in the place of
what the second one would take. -/
theorem Completes.bind {R : List Token → α → Prop} (sound : Sound x R) (hx : Completes x P)
    (finish : ∀ front, P front → ∃ more, IsFilling more ∧ Q (front ++ more))
    (hf : ∀ front a, R front a → Completes (f a) fun more => Q (front ++ more)) :
    Completes (x >>= f) Q := by
  intro tokens e h
  rcases error_of_bind h with failed | ⟨a, middle, found, failed⟩
  · obtain ⟨front, more, split, filling, holds⟩ := hx tokens e failed
    obtain ⟨others, filling', whole⟩ := finish _ holds
    exact ⟨front, more ++ others, split, filling.append filling', by rwa [← List.append_assoc]⟩
  · obtain ⟨front, rfl, holds⟩ := sound _ _ _ found
    obtain ⟨back, more, rfl, filling, whole⟩ := hf front a holds middle e failed
    refine ⟨front ++ back, more, (List.append_assoc _ _ _).symm, filling, ?_⟩
    rwa [List.append_assoc]

theorem Completes.imp (h : Completes x P) (hpq : ∀ front, P front → Q front) : Completes x Q := by
  intro tokens e failed
  obtain ⟨front, more, split, filling, holds⟩ := h tokens e failed
  exact ⟨front, more, split, filling, hpq _ holds⟩

theorem completes_pure (a : α) : Completes (pure a : Rule α) P := nofun

/-- A token that is missing is missed at the first of those that are there. -/
theorem remaining_of_expect {token : Token} {tokens : List Token} {e : Mismatch}
    (h : expect token tokens = .error e) : e.remaining = tokens := by
  by_cases here : tokens.head? = some token
  · obtain ⟨rest, rfl⟩ := List.head?_eq_some_iff.mp here
    rw [expect_cons] at h
    cases h
  · rw [expect_of_head here] at h
    cases h
    rfl

/-- A token that is asked for is put in. -/
theorem completes_expect {token : Token} (filler : token ∈ fillers) :
    Completes (expect token) fun front => front = [token] := by
  intro tokens e h
  exact ⟨[], [token], (remaining_of_expect h).symm, List.forall_mem_singleton.mpr filler, rfl⟩

end Sequence

/-! ## Chains -/

section Chain

variable {item : Rule Node} {separator : Token} {join : Node → Node → Node}
  {P R : List Token → Prop}

theorem completes_moreItems (sound : Sound item fun front _ => P front) (h : Completes item P)
    (nil : R []) (cons : ∀ front more, P front → R more → R (separator :: front ++ more))
    (n : Nat) (left : Node) : Completes (moreItems item separator join n left) R := by
  induction n generalizing left with
  | zero => exact nofun
  | succ n ih =>
      intro tokens e failed
      by_cases here : tokens.head? = some separator
      · obtain ⟨rest, rfl⟩ := List.head?_eq_some_iff.mp here
        rw [moreItems_step] at failed
        have behind : Completes
            (item >>= fun right => moreItems item separator join n (join left right))
            fun front => R (separator :: front) := by
          refine .bind sound h (fun front holds => ⟨[], isFilling_nil, ?_⟩) fun front right holds => ?_
          · exact cons front [] holds nil
          · exact (ih (join left right)).imp fun more => cons front more holds
        obtain ⟨front, more, split, filling, holds⟩ := behind rest e failed
        exact ⟨separator :: front, more, congrArg _ split, filling, holds⟩
      · rw [moreItems_of_head _ _ here] at failed
        cases failed

theorem completes_chain (sound : Sound item fun front _ => P front) (h : Completes item P)
    (nil : R []) (cons : ∀ front more, P front → R more → R (separator :: front ++ more)) :
    Completes (chain item separator join) fun tokens =>
      ∃ front more, tokens = front ++ more ∧ P front ∧ R more := by
  refine .bind sound h (fun front holds => ⟨[], isFilling_nil, front, [], rfl, holds, nil⟩) ?_
  intro front first holds tokens e failed
  obtain ⟨back, more, split, filling, others⟩ :=
    completes_moreItems sound h nil cons tokens.length first tokens e failed
  exact ⟨back, more, split, filling, front, _, rfl, holds, others⟩

end Chain

/-! ## The rules around `Grammar.unary` -/

/-- The shortest condition. -/
def nullCondition : Derivation .or := .or (.and (.plain (.single (.atom .null))) .andEnd) .orEnd

section Around

variable {inTest : Bool} {innermost : Rule Node}

theorem completes_conjunction (sound : Sound innermost (Derives .unary inTest))
    (h : Completes innermost (IsOf .unary)) : Completes (conjunction innermost) (IsOf .and) := by
  refine (completes_chain (R := IsOf .andRest) (sound.imp fun _ _ => Derives.isOf) h
    ⟨.andEnd, rfl⟩ ?_).imp ?_
  · rintro _ _ ⟨next, rfl⟩ ⟨rest, rfl⟩
    exact ⟨.andMore next rest, rfl⟩
  · rintro _ ⟨_, _, rfl, ⟨first, rfl⟩, ⟨rest, rfl⟩⟩
    exact ⟨.and first rest, rfl⟩

theorem completes_condition (sound : Sound innermost (Derives .unary inTest))
    (h : Completes innermost (IsOf .unary)) : Completes (condition innermost) (IsOf .or) := by
  refine (completes_chain (R := IsOf .orRest)
    ((conjunction_sound sound).imp fun _ _ => Derives.isOf) (completes_conjunction sound h)
    ⟨.orEnd, rfl⟩ ?_).imp ?_
  · rintro _ _ ⟨next, rfl⟩ ⟨rest, rfl⟩
    exact ⟨.orMore next rest, rfl⟩
  · rintro _ ⟨_, _, rfl, ⟨first, rfl⟩, ⟨rest, rfl⟩⟩
    exact ⟨.or first rest, rfl⟩

theorem completes_filter (sound : Sound innermost (Derives .unary inTest))
    (h : Completes innermost (IsOf .unary)) : Completes (filter innermost) (IsOf .filter) := by
  refine .bind (.expect _) (completes_expect (by decide)) ?_ fun _ _ first =>
    .bind (.expect _) (completes_expect (by decide)) ?_ fun _ _ second =>
      .bind (condition_sound sound) (completes_condition sound h) ?_ fun _ found third =>
        .bind (.expect _) (completes_expect (by decide)) ?_ fun _ _ _ => completes_pure found
  · rintro _ rfl
    exact ⟨[.question, .null, .closeBracket], by decide, .bracketed nullCondition, rfl⟩
  · rintro _ rfl
    subst first
    exact ⟨[.null, .closeBracket], by decide, .bracketed nullCondition, rfl⟩
  · rintro _ ⟨d, rfl⟩
    subst first second
    exact ⟨[.closeBracket], by decide, .bracketed d, by simp⟩
  · rintro _ rfl
    subst first second
    obtain ⟨d, rfl, -⟩ := third
    exact ⟨[], isFilling_nil, .bracketed d, by simp⟩

/-- The shortest filter. -/
def nullFilter : Derivation .filter := .bracketed nullCondition

theorem isFilling_nullFilter : IsFilling nullFilter.tokens := by decide

theorem completes_elementTest (sound : Sound innermost (Derives .unary inTest))
    (h : Completes innermost (IsOf .unary)) : Completes (elementTest innermost) fun tokens =>
      ∃ d : Derivation .filter, tokens = anyElement ++ d.tokens := by
  refine .bind (.expect _) (completes_expect (by decide)) ?_ fun _ _ first =>
    .bind (.expect _) (completes_expect (by decide)) ?_ fun _ _ second =>
      .bind (.expect _) (completes_expect (by decide)) ?_ fun _ _ third =>
        (completes_filter sound h).imp ?_
  · rintro _ rfl
    exact ⟨.star :: .closeBracket :: nullFilter.tokens, by decide, nullFilter, rfl⟩
  · rintro _ rfl
    subst first
    exact ⟨.closeBracket :: nullFilter.tokens, by decide, nullFilter, rfl⟩
  · rintro _ rfl
    subst first second
    exact ⟨nullFilter.tokens, by decide, nullFilter, rfl⟩
  · rintro _ ⟨d, rfl⟩
    subst first second third
    exact ⟨d, rfl⟩

/-! ## The rules of the operands -/

theorem completes_names : Completes (names : Rule (List String)) fun tokens =>
    ∃ path, path ≠ [] ∧ tokens = pathTokens path := by
  intro tokens
  induction tokens using names.induct with
  | case1 name tokens ih =>
      intro e failed
      have step : (names >>= fun more => (pure (name :: more) : Rule (List String))) tokens =
          .error e := failed
      rcases error_of_bind step with inner | ⟨more, middle, -, ended⟩
      · obtain ⟨front, more, split, filling, path, -, holds⟩ := ih e inner
        refine ⟨.dot :: .identifier name :: front, more, by rw [split]; rfl, filling, name :: path,
          List.cons_ne_nil _ _, ?_⟩
        rw [List.cons_append, List.cons_append, holds]
        rfl
      · cases ended
  | case2 tokens unnamed =>
      intro e failed
      have other : ∀ name, tokens.head? ≠ some (.identifier name) := by
        intro name first
        obtain ⟨rest, rfl⟩ := List.head?_eq_some_iff.mp first
        exact unnamed _ _ rfl
      rw [names_dot other] at failed
      cases failed
      exact ⟨[.dot], [.identifier "a"], rfl, by decide, ["a"], List.cons_ne_nil _ _, rfl⟩
  | case3 tokens _ pointless =>
      intro e failed
      have other : tokens.head? ≠ some .dot := by
        intro first
        obtain ⟨rest, rfl⟩ := List.head?_eq_some_iff.mp first
        exact pointless _ rfl
      rw [names_of_head other] at failed
      cases failed

/-- Behind a point the path is not empty. -/
theorem names_dot_ne_nil {rest middle : List Token} :
    names (.dot :: rest) ≠ .ok ([], middle) := by
  intro found
  by_cases named : ∃ name, rest.head? = some (.identifier name)
  · obtain ⟨name, first⟩ := named
    obtain ⟨more, rfl⟩ := List.head?_eq_some_iff.mp first
    have step : (names >>= fun path => (pure (name :: path) : Rule (List String))) more =
        .ok ([], middle) := found
    obtain ⟨path, after, -, ended⟩ := exists_of_bind step
    cases ended
  · rw [names_dot fun name first => named ⟨name, first⟩] at found
    cases found

theorem completes_access (sound : Sound innermost (Derives .unary true))
    (h : Completes innermost (IsOf .unary)) (root : Node) (anchor : Anchor) :
    Completes (access innermost root) fun tokens => IsOf .operand (anchor.token :: tokens) := by
  intro tokens e failed
  cases found : names tokens with
  | error e' =>
      have first : access innermost root tokens = .error e' := bind_error found
      rw [first] at failed
      cases failed
      obtain ⟨front, more, split, filling, path, named, holds⟩ := completes_names tokens e found
      exact ⟨front, more, split, filling, .field anchor path named, congrArg _ holds.symm⟩
  | ok result =>
      obtain ⟨path, middle⟩ := result
      obtain ⟨_, rfl, rfl⟩ := names_sound _ _ _ found
      by_cases named : path = []
      · subst named
        rw [access_nameless _ _ found] at failed
        cases failed
        exact ⟨[], [.dot, .identifier "a"], rfl, by decide, .field anchor ["a"] (by simp), rfl⟩
      · rw [access_apply _ _ named found] at failed
        split at failed
        · rcases error_of_bind failed with inner | ⟨predicate, after, -, ended⟩
          · obtain ⟨front, more, rfl, filling, d, holds⟩ :=
              completes_elementTest sound h middle e inner
            refine ⟨pathTokens path ++ front, more, (List.append_assoc _ _ _).symm, filling,
              .test anchor path named d, ?_⟩
            rw [List.append_assoc, holds]
            simp
          · cases ended
        · cases failed

theorem completes_operand (sound : Sound innermost (Derives .unary true))
    (h : Completes innermost (IsOf .unary)) (inTest : Bool) :
    Completes (operand innermost inTest) (IsOf .operand) := by
  intro tokens e failed
  by_cases root : ∃ (anchor : Anchor) (rest : List Token), tokens = anchor.token :: rest
  · obtain ⟨anchor, rest, rfl⟩ := root
    rw [operand_anchor] at failed
    obtain ⟨front, more, split, filling, holds⟩ := completes_access sound h _ anchor rest e failed
    exact ⟨anchor.token :: front, more, congrArg _ split, filling, holds⟩
  · cases found : tokens.head?.bind literal? with
    | some node =>
        obtain ⟨token, first, literal⟩ := Option.bind_eq_some_iff.mp found
        obtain ⟨rest, rfl⟩ := List.head?_eq_some_iff.mp first
        obtain ⟨a, rfl, -⟩ := exists_atom literal
        rw [operand_atom] at failed
        cases failed
    | none =>
        have plain : tokens.head? ≠ some .dollar ∧ tokens.head? ≠ some .atSign := by
          constructor
          · intro first
            obtain ⟨rest, rfl⟩ := List.head?_eq_some_iff.mp first
            exact root ⟨.document, rest, rfl⟩
          · intro first
            obtain ⟨rest, rfl⟩ := List.head?_eq_some_iff.mp first
            exact root ⟨.here, rest, rfl⟩
        rw [operand_of_head _ _ plain found] at failed
        cases failed
        exact ⟨[], [.null], rfl, by decide, .atom .null, rfl⟩

theorem completes_comparisonTail (sound : Sound innermost (Derives .unary true))
    (h : Completes innermost (IsOf .unary)) (left : Node) (d : Derivation .operand) :
    Completes (comparisonTail innermost inTest left) fun tokens =>
      IsOf .comparison (d.tokens ++ tokens) := by
  intro tokens e failed
  cases found : tokens.head?.bind comparison? with
  | none =>
      rw [comparisonTail_of_head _ _ _ found] at failed
      cases failed
  | some op =>
      obtain ⟨token, first, compares⟩ := Option.bind_eq_some_iff.mp found
      obtain ⟨rest, rfl⟩ := List.head?_eq_some_iff.mp first
      obtain ⟨sign, rfl, -⟩ := exists_sign compares
      rw [comparisonTail_sign, behindSign] at failed
      split at failed
      · rename_i null
        obtain ⟨rest, rfl⟩ := List.head?_eq_some_iff.mp null
        rw [bind_apply (expect_cons _ _)] at failed
        cases failed
      · rcases error_of_bind failed with inner | ⟨right, after, -, ended⟩
        · obtain ⟨front, more, split, filling, r, holds⟩ :=
            completes_operand sound h inTest rest e inner
          refine ⟨sign.token :: front, more, congrArg _ split, filling, .pair d sign r, ?_⟩
          rw [List.cons_append, ← holds]
          rfl
        · cases ended

theorem completes_comparison (sound : Sound innermost (Derives .unary true))
    (h : Completes innermost (IsOf .unary)) (inTest : Bool) :
    Completes (comparison innermost inTest) (IsOf .comparison) := by
  refine .bind (operand_sound sound inTest) (completes_operand sound h inTest) ?_ ?_
  · rintro _ ⟨d, rfl⟩
    exact ⟨[], isFilling_nil, .single d, (List.append_nil _).symm⟩
  · rintro _ left ⟨d, rfl, -⟩
    exact completes_comparisonTail sound h left d

end Around

/-! ## The rules that call themselves -/

theorem completes_unary (count : Nat) (inTest : Bool) :
    Completes (unary count inTest) (IsOf .unary) := by
  have missing : IsOf .unary [.null] := ⟨.plain (.single (.atom .null)), rfl⟩
  induction count generalizing inTest with
  | zero =>
      intro tokens e failed
      cases failed
      exact ⟨[], [.null], rfl, by decide, missing⟩
  | succ count ih =>
      intro tokens e failed
      by_cases bang : tokens.head? = some .bang
      · obtain ⟨rest, rfl⟩ := List.head?_eq_some_iff.mp bang
        rw [unary_bang] at failed
        rcases error_of_bind failed with inner | ⟨operand, after, -, ended⟩
        · obtain ⟨front, more, split, filling, d, holds⟩ := ih inTest rest e inner
          exact ⟨.bang :: front, more, congrArg _ split, filling, .not d, congrArg _ holds⟩
        · cases ended
      by_cases paren : tokens.head? = some .openParen
      · obtain ⟨rest, rfl⟩ := List.head?_eq_some_iff.mp paren
        rw [unary_openParen] at failed
        have group : Completes (condition (unary count inTest) >>= fun inner => do
            expect .closeParen
            pure inner) fun tokens => IsOf .unary (.openParen :: tokens) := by
          refine .bind (condition_sound (unary_sound count inTest))
            (completes_condition (unary_sound count inTest) (ih inTest)) ?_ fun _ inner first =>
              .bind (.expect _) (completes_expect (by decide)) ?_ fun _ _ _ => completes_pure inner
          · rintro _ ⟨d, rfl⟩
            exact ⟨[.closeParen], by decide, .group d, rfl⟩
          · rintro _ rfl
            obtain ⟨d, rfl, -⟩ := first
            exact ⟨[], isFilling_nil, .group d, by simp⟩
        obtain ⟨front, more, split, filling, holds⟩ := group rest e failed
        exact ⟨.openParen :: front, more, congrArg _ split, filling, holds⟩
      · rw [unary_of_head count inTest bang paren] at failed
        refine (completes_comparison (unary_sound count true) (ih true) inTest).imp ?_ tokens e failed
        rintro _ ⟨d, rfl⟩
        exact ⟨.plain d, rfl⟩

theorem completes_templateBody :
    Completes templateBody fun tokens => IsOf .template (.dollar :: tokens) := by
  intro tokens e failed
  rw [templateBody_eq] at failed
  simp only [templateBodyOf] at failed
  split at failed
  · rename_i point
    obtain ⟨rest, rfl⟩ := List.head?_eq_some_iff.mp point
    rcases error_of_bind failed with inner | ⟨path, middle, found, behind⟩
    · obtain ⟨front, more, split, filling, path, named, holds⟩ := completes_names _ e inner
      refine ⟨front, more ++ (anyElement ++ nullFilter.tokens), split,
        filling.append (by decide), .elements path named nullFilter, ?_⟩
      rw [← List.append_assoc, holds]
      simp
    · obtain ⟨_, split, rfl⟩ := names_sound _ _ _ found
      have named : path ≠ [] := by
        rintro rfl
        exact names_dot_ne_nil found
      rcases error_of_bind behind with inner | ⟨predicate, after, -, ended⟩
      · obtain ⟨front, more, rfl, filling, d, holds⟩ :=
          completes_elementTest (unary_sound _ true) (completes_unary _ true) middle e inner
        refine ⟨pathTokens path ++ front, more, by rw [split, List.append_assoc], filling,
          .elements path named d, ?_⟩
        rw [List.append_assoc, holds]
        simp
      · cases ended
  · obtain ⟨front, more, split, filling, d, holds⟩ :=
      completes_filter (unary_sound _ false) (completes_unary _ false) tokens e failed
    exact ⟨front, more, split, filling, .whole d, congrArg _ holds⟩

/-! ## The first token that fits nowhere -/

/-- Where a template is refused, the tokens in front are completed to one. -/
theorem exists_completion {tokens : List Token} {e : Mismatch} (h : template tokens = .error e) :
    ∃ (front more : List Token) (d : Derivation .template),
      tokens = front ++ e.remaining ∧ IsFilling more ∧ d.tokens = front ++ more := by
  have body : Completes (templateBody >>= fun tree => expect .eof >>= fun _ => pure tree)
      fun tokens => IsOf .template (.dollar :: tokens) := by
    intro tokens e failed
    rcases error_of_bind failed with inner | ⟨tree, after, found, ending⟩
    · exact completes_templateBody tokens e inner
    · rcases error_of_bind ending with missing | ⟨_, _, -, ended⟩
      · obtain ⟨front, rfl, d, holds, -⟩ := templateBody_sound _ _ _ found
        exact ⟨front, [], by rw [remaining_of_expect missing], isFilling_nil, d,
          by rw [holds, List.append_nil]⟩
      · cases ended
  have whole : Completes template (IsOf .template) := by
    refine .bind (.expect _) (completes_expect (by decide)) ?_ fun _ _ first => body.imp ?_
    · rintro _ rfl
      exact ⟨nullFilter.tokens, isFilling_nullFilter, .whole nullFilter, rfl⟩
    · rintro _ holds
      subst first
      exact holds
  obtain ⟨front, more, split, filling, d, holds⟩ := whole tokens e h
  exact ⟨front, more, d, split, filling, holds⟩

end DataFilter.Grammar
