import DataFilter.Proofs.Template.Rules

/-!
# What the rules accept, the grammar derives

A rule that succeeds has taken off the tokens of a derivation, and its result is the meaning of that
derivation. Soundness of `Grammar.unary` is an induction on its bound; the rules around it are sound
as far as the rule for their innermost parts is, so each is settled once, for any such rule.
-/

namespace DataFilter.Grammar

/-- The tokens are those of a derivation with this meaning. -/
def Derives (c : Category) (inTest : Bool) (front : List Token) (meaning : Meaning c) : Prop :=
  ∃ d : Derivation c, d.tokens = front ∧ d.tree inTest = meaning

/-- A rule that succeeds takes off tokens of which `P` holds, together with its result. -/
def Sound {α : Type} (rule : Rule α) (P : List Token → α → Prop) : Prop :=
  ∀ tokens result rest, rule tokens = .ok (result, rest) →
    ∃ front, tokens = front ++ rest ∧ P front result

/-! ## Steps of a rule that succeeds -/

section Steps

variable {α β : Type} {x : Rule α} {f : α → Rule β}

/-- Rules in sequence. -/
theorem Sound.bind {P : List Token → α → Prop} {Q : List Token → β → Prop} (hx : Sound x P)
    (hf : ∀ front a, P front a → Sound (f a) fun more b => Q (front ++ more) b) :
    Sound (x >>= f) Q := by
  intro tokens result rest h
  obtain ⟨a, middle, ha, hb⟩ := exists_of_bind h
  obtain ⟨front, rfl, hp⟩ := hx _ _ _ ha
  obtain ⟨more, rfl, hq⟩ := hf front a hp _ _ _ hb
  exact ⟨front ++ more, (List.append_assoc ..).symm, hq⟩

theorem Sound.expect (token : Token) : Sound (expect token) fun front _ => front = [token] :=
  fun _ _ _ h => ⟨[token], eq_cons_of_expect h, rfl⟩

theorem Sound.pure (a : α) : Sound (pure a) fun front b => front = [] ∧ a = b := by
  intro tokens result rest h
  cases h
  exact ⟨[], rfl, rfl, rfl⟩

theorem Sound.imp {P Q : List Token → α → Prop} (h : Sound x P)
    (hpq : ∀ front a, P front a → Q front a) : Sound x Q := by
  intro tokens result rest hx
  obtain ⟨front, htokens, hp⟩ := h _ _ _ hx
  exact ⟨front, htokens, hpq _ _ hp⟩

end Steps

/-- The items behind separators, collected by any relation that is closed under one more item. -/
theorem moreItems_sound {item : Rule Node} {separator : Token} {join : Node → Node → Node}
    {P : List Token → Node → Prop} {R : List Token → List Node → Prop} (hitem : Sound item P)
    (nil : R [] [])
    (cons : ∀ front t more ts, P front t → R more ts → R (separator :: front ++ more) (t :: ts)) :
    ∀ (n : Nat) (left : Node), Sound (moreItems item separator join n left)
      fun front t => ∃ ts, R front ts ∧ ts.foldl join left = t := by
  intro n
  induction n with
  | zero =>
      intro left tokens t rest h
      cases h
      exact ⟨[], rfl, [], nil, rfl⟩
  | succ n ih =>
      intro left tokens t rest h
      unfold moreItems at h
      split at h
      · rename_i token tokens
        split at h
        · rename_i hsep
          change (item >>= fun right => moreItems item separator join n (join left right)) _ = _ at h
          obtain ⟨right, middle, hright, hmore⟩ := exists_of_bind h
          obtain ⟨front, rfl, hp⟩ := hitem _ _ _ hright
          obtain ⟨more, rfl, ts, hr, rfl⟩ := ih _ _ _ _ hmore
          exact ⟨separator :: front ++ more, by simp [hsep], right :: ts,
            cons _ _ _ _ hp hr, rfl⟩
        · cases h
          exact ⟨[], rfl, [], nil, rfl⟩
      · cases h
        exact ⟨[], rfl, [], nil, rfl⟩

/-- A chain is a first item and the items behind separators. -/
theorem chain_sound {item : Rule Node} {separator : Token} {join : Node → Node → Node}
    {P : List Token → Node → Prop} {R : List Token → List Node → Prop} (hitem : Sound item P)
    (nil : R [] [])
    (cons : ∀ front t more ts, P front t → R more ts → R (separator :: front ++ more) (t :: ts)) :
    Sound (chain item separator join) fun front t =>
      ∃ start first more ts, front = start ++ more ∧ P start first ∧ R more ts ∧
        ts.foldl join first = t := by
  intro tokens t rest h
  obtain ⟨first, middle, hfirst, hmore⟩ := exists_of_bind h
  obtain ⟨start, rfl, hp⟩ := hitem _ _ _ hfirst
  obtain ⟨more, rfl, ts, hr, ht⟩ := moreItems_sound hitem nil cons _ _ _ _ _ hmore
  exact ⟨start ++ more, (List.append_assoc ..).symm, start, first, more, ts, rfl, hp, hr, ht⟩

/-! ## The rules around `Grammar.unary` -/

section Around

variable {inTest : Bool} {innermost : Rule Node}

theorem conjunction_sound (h : Sound innermost (Derives .unary inTest)) :
    Sound (conjunction innermost) (Derives .and inTest) := by
  refine (chain_sound (R := Derives .andRest inTest) h ⟨.andEnd, rfl, rfl⟩ ?_).imp ?_
  · rintro front t more ts ⟨next, rfl, rfl⟩ ⟨rest, rfl, rfl⟩
    exact ⟨.andMore next rest, rfl, rfl⟩
  · rintro front t ⟨start, first, more, ts, rfl, ⟨d, rfl, rfl⟩, ⟨rest, rfl, rfl⟩, rfl⟩
    exact ⟨.and d rest, rfl, rfl⟩

theorem condition_sound (h : Sound innermost (Derives .unary inTest)) :
    Sound (condition innermost) (Derives .or inTest) := by
  refine (chain_sound (R := Derives .orRest inTest) (conjunction_sound h)
    ⟨.orEnd, rfl, rfl⟩ ?_).imp ?_
  · rintro front t more ts ⟨next, rfl, rfl⟩ ⟨rest, rfl, rfl⟩
    exact ⟨.orMore next rest, rfl, rfl⟩
  · rintro front t ⟨start, first, more, ts, rfl, ⟨d, rfl, rfl⟩, ⟨rest, rfl, rfl⟩, rfl⟩
    exact ⟨.or d rest, rfl, rfl⟩

theorem filter_sound (h : Sound innermost (Derives .unary inTest)) :
    Sound (filter innermost) (Derives .filter inTest) := by
  unfold filter
  refine (Sound.expect _).bind fun _ _ h1 => (Sound.expect _).bind fun _ _ h2 =>
    (condition_sound h).bind fun _ _ h3 => (Sound.expect _).bind fun _ _ h4 =>
      (Sound.pure _).imp ?_
  rintro _ _ ⟨rfl, rfl⟩
  subst h1 h2 h4
  obtain ⟨d, rfl, rfl⟩ := h3
  exact ⟨.bracketed d, by simp [Derivation.tokens], rfl⟩

theorem elementTest_sound (h : Sound innermost (Derives .unary inTest)) :
    Sound (elementTest innermost) fun front t =>
      ∃ d : Derivation .filter, front = anyElement ++ d.tokens ∧ d.tree inTest = t := by
  unfold elementTest
  refine (Sound.expect _).bind fun _ _ h1 => (Sound.expect _).bind fun _ _ h2 =>
    (Sound.expect _).bind fun _ _ h3 => (filter_sound h).imp ?_
  rintro _ _ ⟨d, rfl, rfl⟩
  subst h1 h2 h3
  exact ⟨d, rfl, rfl⟩

end Around

/-! ## The rules of the operands -/

theorem names_sound : Sound names fun front path => front = pathTokens path := by
  intro tokens
  induction tokens using names.induct with
  | case1 name tokens ih =>
      intro path rest h
      cases hmore : names tokens with
      | error e => simp [names, hmore, bind, Except.bind] at h
      | ok found =>
          obtain ⟨front, htokens, rfl⟩ := ih _ _ hmore
          simp only [names, hmore, bind, Except.bind] at h
          cases h
          exact ⟨_, by rw [htokens]; rfl, rfl⟩
  | case2 tokens hne =>
      intro path rest h
      rw [names] at h
      · cases h
      · exact hne
  | case3 tokens hne hdot =>
      intro path rest h
      rw [names] at h
      · cases h
        exact ⟨[], rfl, rfl⟩
      · exact hne
      · exact hdot

theorem exists_atom {token : Token} {node : Node} (h : literal? token = some node) :
    ∃ a : Atom, a.token = token ∧ a.node = node := by
  cases token with
  | integer n => exact ⟨.integer n, rfl, Option.some.inj h⟩
  | float x => exact ⟨.float x, rfl, Option.some.inj h⟩
  | text s => exact ⟨.text s, rfl, Option.some.inj h⟩
  | boolean b => exact ⟨.boolean b, rfl, Option.some.inj h⟩
  | null => exact ⟨.null, rfl, Option.some.inj h⟩
  | placeholder p => exact ⟨.placeholder p, rfl, Option.some.inj h⟩
  | _ => cases h

theorem exists_sign {token : Token} {op : Operator} (h : comparison? token = some op) :
    ∃ sign : Sign, sign.token = token ∧ sign.operator = op := by
  cases token with
  | equalEqual => exact ⟨.equal, rfl, Option.some.inj h⟩
  | notEqual => exact ⟨.notEqual, rfl, Option.some.inj h⟩
  | less => exact ⟨.less, rfl, Option.some.inj h⟩
  | greater => exact ⟨.greater, rfl, Option.some.inj h⟩
  | lessEqual => exact ⟨.lessEqual, rfl, Option.some.inj h⟩
  | greaterEqual => exact ⟨.greaterEqual, rfl, Option.some.inj h⟩
  | _ => cases h

section Operands

variable {elementUnary : Rule Node}

/-- What a reference of some anchor spells and means, without the anchor's token. -/
theorem access_sound (h : Sound elementUnary (Derives .unary true)) (inTest : Bool)
    (anchor : Anchor) : Sound (access elementUnary (anchor.root inTest)) fun front t =>
      Derives .operand inTest (anchor.token :: front) t := by
  intro tokens t rest hrest
  cases hnames : names tokens with
  | error e =>
      change Except.bind (names tokens) _ = _ at hrest
      rw [hnames] at hrest
      cases hrest
  | ok found =>
      obtain ⟨path, middle⟩ := found
      obtain ⟨_, rfl, rfl⟩ := names_sound _ _ _ hnames
      by_cases named : path = []
      · subst named
        rw [access_nameless _ _ hnames] at hrest
        cases hrest
      · rw [access_apply _ _ named hnames] at hrest
        split at hrest
        · obtain ⟨predicate, _, hpredicate, hpure⟩ := exists_of_bind hrest
          cases hpure
          obtain ⟨front, rfl, d, rfl, rfl⟩ := elementTest_sound h _ _ _ hpredicate
          exact ⟨pathTokens path ++ (anyElement ++ d.tokens), (List.append_assoc ..).symm,
            .test anchor path named d, by simp [Derivation.tokens], rfl⟩
        · cases hrest
          exact ⟨pathTokens path, rfl, .field anchor path named, rfl, rfl⟩

theorem operand_sound (h : Sound elementUnary (Derives .unary true)) (inTest : Bool) :
    Sound (operand elementUnary inTest) (Derives .operand inTest) := by
  intro tokens t rest hrest
  unfold operand at hrest
  split at hrest
  · obtain ⟨front, rfl, hd⟩ := access_sound h inTest .document _ _ _ hrest
    exact ⟨_, rfl, hd⟩
  · obtain ⟨front, rfl, hd⟩ := access_sound h inTest .here _ _ _ hrest
    exact ⟨_, rfl, hd⟩
  · split at hrest
    · rename_i hliteral
      cases hrest
      obtain ⟨a, rfl, rfl⟩ := exists_atom hliteral
      exact ⟨[a.token], rfl, .atom a, rfl, rfl⟩
    · cases hrest
  · cases hrest

/-- An operand that is `null` has `null` as its first token. -/
theorem head_of_isNull {d : Derivation .operand} (h : d.isNull = true) : d.tokens = [.null] := by
  cases d with
  | atom a => cases a <;> first | rfl | cases h
  | field => cases h
  | test => cases h

/-- The tail prolongs the derivation of its left operand. -/
theorem comparisonTail_sound (h : Sound elementUnary (Derives .unary true)) {inTest : Bool}
    {left : Derivation .operand} :
    Sound (comparisonTail elementUnary inTest (left.tree inTest)) fun front t =>
      Derives .comparison inTest (left.tokens ++ front) t := by
  intro tokens t rest hrest
  unfold comparisonTail at hrest
  -- no sign behind the operand: it is all there is
  split at hrest
  · cases hrest
    exact ⟨[], rfl, .single left, by simp [Derivation.tokens], rfl⟩
  · split at hrest
    · cases hrest
      exact ⟨[], rfl, .single left, by simp [Derivation.tokens], rfl⟩
    · rename_i token tokens _ op hop
      obtain ⟨sign, rfl, rfl⟩ := exists_sign hop
      -- a sign: the null test of it, or a right operand
      split at hrest
      · rename_i test more htest
        cases hrest
        refine ⟨[sign.token, .null], rfl, .pair left sign (.atom .null), rfl, ?_⟩
        cases sign <;> cases htest <;> rfl
      · rename_i hnull
        change (operand elementUnary inTest >>= fun right =>
          (pure (.between (left.tree inTest) sign.operator right) : Rule Node)) _ = _ at hrest
        obtain ⟨right, middle, hright, hpure⟩ := exists_of_bind hrest
        cases hpure
        obtain ⟨front, rfl, d, rfl, rfl⟩ := operand_sound h inTest _ _ _ hright
        refine ⟨sign.token :: d.tokens, rfl, .pair left sign d, rfl, ?_⟩
        show sign.compare _ d.isNull _ = _
        cases hd : d.isNull with
        | false => cases sign <;> rfl
        | true =>
            -- a `null` was left to the operands, so the sign has no null test
            have absurd_null : ∀ test, nullTest? sign.operator = some test → False :=
              fun test htest => hnull test _ htest (by rw [head_of_isNull hd]; rfl)
            cases sign with
            | equal => exact (absurd_null _ rfl).elim
            | notEqual => exact (absurd_null _ rfl).elim
            | _ => rfl

theorem comparison_sound (h : Sound elementUnary (Derives .unary true)) (inTest : Bool) :
    Sound (comparison elementUnary inTest) (Derives .comparison inTest) := by
  unfold comparison
  refine (operand_sound h inTest).bind ?_
  rintro _ _ ⟨left, rfl, rfl⟩
  exact comparisonTail_sound h

end Operands

/-! ## The rules that call themselves -/

theorem unary_sound (count : Nat) : ∀ inTest : Bool,
    Sound (unary count inTest) (Derives .unary inTest) := by
  induction count with
  | zero =>
      intro inTest tokens t rest h
      cases h
  | succ count ih =>
      intro inTest tokens t rest h
      unfold unary at h
      -- the first token tells a negation and a group from a comparison
      split at h
      · rename_i tokens
        change (unary count inTest >>= fun operand => (pure (.not operand) : Rule Node)) _ = _ at h
        obtain ⟨operand, _, hoperand, hpure⟩ := exists_of_bind h
        cases hpure
        obtain ⟨front, rfl, d, rfl, rfl⟩ := ih inTest _ _ _ hoperand
        exact ⟨.bang :: d.tokens, rfl, .not d, rfl, rfl⟩
      · rename_i tokens
        change (condition (unary count inTest) >>= fun inner =>
          expect .closeParen >>= fun _ => (pure inner : Rule Node)) _ = _ at h
        obtain ⟨inner, _, hinner, hclose⟩ := exists_of_bind h
        obtain ⟨_, _, hexpect, hpure⟩ := exists_of_bind hclose
        cases hpure
        obtain rfl := eq_cons_of_expect hexpect
        obtain ⟨front, rfl, d, rfl, rfl⟩ := condition_sound (ih inTest) _ _ _ hinner
        exact ⟨.openParen :: d.tokens ++ [.closeParen], by simp, .group d, rfl, rfl⟩
      · obtain ⟨front, rfl, d, rfl, rfl⟩ := comparison_sound (ih true) inTest _ _ _ h
        exact ⟨d.tokens, rfl, .plain d, rfl, rfl⟩

/-- What follows the `$` of a template. -/
theorem templateBody_sound : Sound templateBody fun front t =>
    Derives .template false (.dollar :: front) t := by
  intro tokens t rest h
  obtain ⟨_, _, hget, h⟩ := exists_of_bind (x := get) h
  cases hget
  split at h
  · obtain ⟨path, middle, hnames, h⟩ := exists_of_bind (x := names) h
    obtain ⟨predicate, _, hpredicate, hpure⟩ := exists_of_bind h
    cases hpure
    obtain ⟨_, htokens, rfl⟩ := names_sound _ _ _ hnames
    obtain ⟨front, rfl, d, rfl, rfl⟩ := elementTest_sound (unary_sound _ true) _ _ _ hpredicate
    have named : path ≠ [] := by
      rintro rfl
      cases htokens
    exact ⟨pathTokens path ++ (anyElement ++ d.tokens), by rw [htokens, List.append_assoc (pathTokens path)],
      .elements path named d, by simp [Derivation.tokens], rfl⟩
  · obtain ⟨front, rfl, d, rfl, rfl⟩ := filter_sound (unary_sound _ false) _ _ _ h
    exact ⟨d.tokens, rfl, .whole d, rfl, rfl⟩

theorem template_sound : Sound template fun front t =>
    ∃ d : Derivation .template, front = d.tokens ++ [.eof] ∧ d.tree false = t := by
  unfold template
  refine (Sound.expect _).bind fun _ _ h1 => templateBody_sound.bind fun _ _ h2 =>
    (Sound.expect _).bind fun _ _ h3 => (Sound.pure _).imp ?_
  rintro _ _ ⟨rfl, rfl⟩
  obtain ⟨d, hd, rfl⟩ := h2
  subst h1 h3
  exact ⟨d, by simp [hd], rfl⟩

end DataFilter.Grammar
