import DataFilter.Proofs.Template.Completeness
import DataFilter.Proofs.Template.Lexing
import DataFilter.Proofs.Template.Soundness

/-!
# The parser accepts exactly its grammar

The grammar is unambiguous: two derivations of one category with the same tokens in front are the
same, if neither is prolonged by what follows it. With the soundness and completeness of the rules,
a template is accepted if and only if its tokens have a derivation, and then its tree is the meaning
of the only one.
-/

namespace DataFilter.Grammar

/-! ## No token sequence has two derivations -/

/-- A path ends where no point follows it. -/
theorem pathTokens_unique {path path' : List String} {rest rest' : List Token}
    (h : pathTokens path ++ rest = pathTokens path' ++ rest')
    (no_dot : ∀ token ∈ rest.head?, token ≠ .dot) (no_dot' : ∀ token ∈ rest'.head?, token ≠ .dot) :
    path = path' ∧ rest = rest' := by
  have both : (.ok (path, rest) : Except Mismatch _) = .ok (path', rest') := by
    rw [← names_pathTokens path no_dot, h, names_pathTokens path' no_dot']
  cases both
  exact ⟨rfl, rfl⟩

theorem no_dot_of_ends {rest : List Token} (h : Ends 4 rest) :
    ∀ token ∈ rest.head?, token ≠ .dot := by
  rintro token hmem rfl
  exact absurd (h _ hmem) (by decide)

theorem ends_anyElement (tokens : List Token) :
    ∀ token ∈ (anyElement ++ tokens).head?, token ≠ .dot := by
  simp [anyElement]

namespace Derivation

/-- No other derivation spells what this one does, if nothing prolongs either of them. -/
def IsOnly {c : Category} (d : Derivation c) : Prop :=
  ∀ (d' : Derivation c) (rest rest' : List Token), d.tokens ++ rest = d'.tokens ++ rest' →
    Ends (reach c) rest → Ends (reach c) rest' → d = d' ∧ rest = rest'

theorem isOnly_whole {filter : Derivation .filter} (only : filter.IsOnly) :
    (whole filter).IsOnly := by
  intro d' rest rest' h hends hends'
  cases d' with
  | whole filter' =>
      obtain ⟨rfl, rfl⟩ := only filter' rest rest' (List.cons.inj h).2 hends hends'
      exact ⟨rfl, rfl⟩
  | elements path' named' filter' =>
      cases filter
      obtain ⟨name, more, rfl⟩ := List.exists_cons_of_ne_nil named'
      cases h

theorem isOnly_elements {path : List String} {named : path ≠ []} {filter : Derivation .filter}
    (only : filter.IsOnly) : (elements path named filter).IsOnly := by
  intro d' rest rest' h hends hends'
  cases d' with
  | whole filter' =>
      cases filter'
      obtain ⟨name, more, rfl⟩ := List.exists_cons_of_ne_nil named
      cases h
  | elements path' named' filter' =>
      simp only [tokens, List.cons_append, List.append_assoc, List.cons.injEq, true_and] at h
      obtain ⟨rfl, htail⟩ := pathTokens_unique h (ends_anyElement _) (ends_anyElement _)
      obtain ⟨rfl, rfl⟩ := only filter' rest rest' (List.append_cancel_left htail) hends hends'
      exact ⟨rfl, rfl⟩

theorem isOnly_bracketed {condition : Derivation .or} (only : condition.IsOnly) :
    (bracketed condition).IsOnly := by
  intro d' rest rest' h _ _
  cases d' with
  | bracketed condition' =>
      obtain ⟨rfl, hrest⟩ := only condition' (.closeBracket :: rest) (.closeBracket :: rest')
        (by simpa [tokens] using h) (by simp [strength, reach]) (by simp [strength, reach])
      exact ⟨rfl, (List.cons.inj hrest).2⟩

theorem isOnly_or {first : Derivation .and} {more : Derivation .orRest} (onlyFirst : first.IsOnly)
    (onlyMore : more.IsOnly) : (or first more).IsOnly := by
  intro d' rest rest' h hends hends'
  cases d' with
  | or first' more' =>
      simp only [tokens, List.append_assoc] at h
      obtain ⟨rfl, hmore⟩ := onlyFirst first' _ _ h (ends_orRest _ hends) (ends_orRest _ hends')
      obtain ⟨rfl, rfl⟩ := onlyMore more' _ _ hmore hends hends'
      exact ⟨rfl, rfl⟩

theorem isOnly_orEnd : orEnd.IsOnly := by
  intro d' rest rest' h hends _
  cases d' with
  | orEnd => exact ⟨rfl, h⟩
  | orMore next' more' =>
      obtain rfl : rest = _ := h
      simp [tokens, strength, reach] at hends

theorem isOnly_orMore {next : Derivation .and} {more : Derivation .orRest} (onlyNext : next.IsOnly)
    (onlyMore : more.IsOnly) : (orMore next more).IsOnly := by
  intro d' rest rest' h hends hends'
  cases d' with
  | orEnd =>
      obtain rfl : _ = rest' := h
      simp [tokens, strength, reach] at hends'
  | orMore next' more' =>
      simp only [tokens, List.cons_append, List.append_assoc, List.cons.injEq, true_and] at h
      obtain ⟨rfl, hmore⟩ := onlyNext next' _ _ h (ends_orRest _ hends) (ends_orRest _ hends')
      obtain ⟨rfl, rfl⟩ := onlyMore more' _ _ hmore hends hends'
      exact ⟨rfl, rfl⟩

theorem isOnly_and {first : Derivation .unary} {more : Derivation .andRest}
    (onlyFirst : first.IsOnly) (onlyMore : more.IsOnly) : (and first more).IsOnly := by
  intro d' rest rest' h hends hends'
  cases d' with
  | and first' more' =>
      simp only [tokens, List.append_assoc] at h
      obtain ⟨rfl, hmore⟩ := onlyFirst first' _ _ h (ends_andRest _ hends) (ends_andRest _ hends')
      obtain ⟨rfl, rfl⟩ := onlyMore more' _ _ hmore hends hends'
      exact ⟨rfl, rfl⟩

theorem isOnly_andEnd : andEnd.IsOnly := by
  intro d' rest rest' h hends _
  cases d' with
  | andEnd => exact ⟨rfl, h⟩
  | andMore next' more' =>
      obtain rfl : rest = _ := h
      simp [tokens, strength, reach] at hends

theorem isOnly_andMore {next : Derivation .unary} {more : Derivation .andRest}
    (onlyNext : next.IsOnly) (onlyMore : more.IsOnly) : (andMore next more).IsOnly := by
  intro d' rest rest' h hends hends'
  cases d' with
  | andEnd =>
      obtain rfl : _ = rest' := h
      simp [tokens, strength, reach] at hends'
  | andMore next' more' =>
      simp only [tokens, List.cons_append, List.append_assoc, List.cons.injEq, true_and] at h
      obtain ⟨rfl, hmore⟩ := onlyNext next' _ _ h (ends_andRest _ hends) (ends_andRest _ hends')
      obtain ⟨rfl, rfl⟩ := onlyMore more' _ _ hmore hends hends'
      exact ⟨rfl, rfl⟩

theorem isOnly_not {operand : Derivation .unary} (only : operand.IsOnly) :
    (not operand).IsOnly := by
  intro d' rest rest' h hends hends'
  cases d' with
  | not operand' =>
      obtain ⟨rfl, rfl⟩ := only operand' rest rest' (List.cons.inj h).2 hends hends'
      exact ⟨rfl, rfl⟩
  | group condition' => cases h
  | plain comparison' =>
      obtain ⟨token, more, htokens, hbang, _⟩ := comparison_head comparison'
      simp only [tokens, htokens] at h
      exact absurd (List.cons.inj h).1.symm hbang

theorem isOnly_group {condition : Derivation .or} (only : condition.IsOnly) :
    (group condition).IsOnly := by
  intro d' rest rest' h _ _
  cases d' with
  | not operand' => cases h
  | group condition' =>
      obtain ⟨rfl, hrest⟩ := only condition' (.closeParen :: rest) (.closeParen :: rest')
        (by simpa [tokens] using h) (by simp [strength, reach]) (by simp [strength, reach])
      exact ⟨rfl, (List.cons.inj hrest).2⟩
  | plain comparison' =>
      obtain ⟨token, more, htokens, _, hparen⟩ := comparison_head comparison'
      simp only [tokens, htokens] at h
      exact absurd (List.cons.inj h).1.symm hparen

theorem isOnly_plain {comparison : Derivation .comparison} (only : comparison.IsOnly) :
    (plain comparison).IsOnly := by
  intro d' rest rest' h hends hends'
  obtain ⟨token, more, htokens, hbang, hparen⟩ := comparison_head comparison
  cases d' with
  | not operand' =>
      simp only [tokens, htokens] at h
      exact absurd (List.cons.inj h).1 hbang
  | group condition' =>
      simp only [tokens, htokens] at h
      exact absurd (List.cons.inj h).1 hparen
  | plain comparison' =>
      obtain ⟨rfl, rfl⟩ := only comparison' rest rest' h hends hends'
      exact ⟨rfl, rfl⟩

theorem isOnly_single {operand : Derivation .operand} (only : operand.IsOnly) :
    (single operand).IsOnly := by
  intro d' rest rest' h hends hends'
  cases d' with
  | single operand' =>
      obtain ⟨rfl, rfl⟩ := only operand' rest rest' h (hends.mono (by decide))
        (hends'.mono (by decide))
      exact ⟨rfl, rfl⟩
  | pair left' sign' right' =>
      simp only [tokens, List.cons_append, List.append_assoc] at h
      obtain ⟨rfl, rfl⟩ := only left' rest _ h (hends.mono (by decide)) (by simp [reach])
      simp [reach] at hends

theorem isOnly_pair {left right : Derivation .operand} {sign : Sign} (onlyLeft : left.IsOnly)
    (onlyRight : right.IsOnly) : (pair left sign right).IsOnly := by
  intro d' rest rest' h hends hends'
  cases d' with
  | single operand' =>
      simp only [tokens, List.cons_append, List.append_assoc] at h
      obtain ⟨rfl, rfl⟩ := onlyLeft operand' _ rest' h (by simp [reach]) (hends'.mono (by decide))
      simp [reach] at hends'
  | pair left' sign' right' =>
      simp only [tokens, List.cons_append, List.append_assoc] at h
      obtain ⟨rfl, htail⟩ := onlyLeft left' _ _ h (by simp [reach]) (by simp [reach])
      obtain ⟨hsign, hright⟩ := List.cons.inj htail
      obtain rfl := Sign.token_injective hsign
      obtain ⟨rfl, rfl⟩ := onlyRight right' rest rest' hright (hends.mono (by decide))
        (hends'.mono (by decide))
      exact ⟨rfl, rfl⟩

theorem isOnly_atom (a : Atom) : (atom a).IsOnly := by
  intro d' rest rest' h _ _
  cases d' with
  | atom a' =>
      obtain ⟨ha, rfl⟩ := List.cons.inj h
      obtain rfl := Atom.token_injective ha
      exact ⟨rfl, rfl⟩
  | field anchor' path' named' => cases a <;> cases anchor' <;> cases h
  | test anchor' path' named' filter' => cases a <;> cases anchor' <;> cases h

theorem isOnly_field (anchor : Anchor) (path : List String) (named : path ≠ []) :
    (field anchor path named).IsOnly := by
  intro d' rest rest' h hends hends'
  cases d' with
  | atom a' => cases a' <;> cases anchor <;> cases h
  | field anchor' path' named' =>
      obtain ⟨ha, hpath⟩ := List.cons.inj h
      obtain rfl := Anchor.token_injective ha
      obtain ⟨rfl, rfl⟩ := pathTokens_unique hpath (no_dot_of_ends hends) (no_dot_of_ends hends')
      exact ⟨rfl, rfl⟩
  | test anchor' path' named' filter' =>
      simp only [tokens, List.cons_append, List.append_assoc, List.cons.injEq] at h
      obtain ⟨rfl, rfl⟩ := pathTokens_unique h.2 (no_dot_of_ends hends) (ends_anyElement _)
      simp [anyElement, strength, reach] at hends

theorem isOnly_test {anchor : Anchor} {path : List String} {named : path ≠ []}
    {filter : Derivation .filter} (only : filter.IsOnly) :
    (test anchor path named filter).IsOnly := by
  intro d' rest rest' h hends hends'
  cases d' with
  | atom a' => cases a' <;> cases anchor <;> cases h
  | field anchor' path' named' =>
      simp only [tokens, List.cons_append, List.append_assoc, List.cons.injEq] at h
      obtain ⟨rfl, rfl⟩ := pathTokens_unique h.2 (ends_anyElement _) (no_dot_of_ends hends')
      simp [anyElement, strength, reach] at hends'
  | test anchor' path' named' filter' =>
      simp only [tokens, List.cons_append, List.append_assoc, List.cons.injEq] at h
      obtain rfl := Anchor.token_injective h.1
      obtain ⟨rfl, htail⟩ := pathTokens_unique h.2 (ends_anyElement _) (ends_anyElement _)
      obtain ⟨rfl, rfl⟩ := only filter' rest rest' (List.append_cancel_left htail)
        (hends.mono (by decide)) (hends'.mono (by decide))
      exact ⟨rfl, rfl⟩

theorem isOnly {c : Category} (d : Derivation c) : d.IsOnly := by
  induction d with
  | whole _ ih => exact isOnly_whole ih
  | elements _ _ _ ih => exact isOnly_elements ih
  | bracketed _ ih => exact isOnly_bracketed ih
  | or _ _ ihFirst ihMore => exact isOnly_or ihFirst ihMore
  | orEnd => exact isOnly_orEnd
  | orMore _ _ ihNext ihMore => exact isOnly_orMore ihNext ihMore
  | and _ _ ihFirst ihMore => exact isOnly_and ihFirst ihMore
  | andEnd => exact isOnly_andEnd
  | andMore _ _ ihNext ihMore => exact isOnly_andMore ihNext ihMore
  | not _ ih => exact isOnly_not ih
  | group _ ih => exact isOnly_group ih
  | plain _ ih => exact isOnly_plain ih
  | single _ ih => exact isOnly_single ih
  | pair _ _ _ ihLeft ihRight => exact isOnly_pair ihLeft ihRight
  | atom a => exact isOnly_atom a
  | field anchor path named => exact isOnly_field anchor path named
  | test _ _ _ _ ih => exact isOnly_test ih

end Derivation

end DataFilter.Grammar

namespace DataFilter

open Grammar

/-- A derivation of a template spells these lexemes, the end included. -/
def Spells (d : Derivation .template) (lexemes : List Lexeme) : Prop :=
  lexemes.map Lexeme.token = d.tokens ++ [.eof]

theorem Spells.unique {d d' : Derivation .template} {lexemes : List Lexeme} (h : Spells d lexemes)
    (h' : Spells d' lexemes) : d' = d :=
  (d'.isOnly d [.eof] [.eof] (h'.symm.trans h) (by simp [strength, reach])
    (by simp [strength, reach])).1

/-- The rules find a tree exactly where there is a derivation, and the tree is its meaning. -/
theorem ofTokens?_eq_ok_iff {tokens : List Token} {tree : Node} :
    Node.ofTokens? tokens = .ok tree ↔
      ∃ (d : Derivation .template) (rest : List Token),
        tokens = d.tokens ++ .eof :: rest ∧ d.tree false = tree := by
  unfold Node.ofTokens?
  constructor
  · intro h
    cases hrun : template tokens with
    | error e => rw [hrun] at h; cases h
    | ok found =>
        rw [hrun] at h
        cases h
        obtain ⟨front, htokens, d, rfl, htree⟩ := template_sound _ _ _ hrun
        exact ⟨d, found.2, by rw [htokens]; simp, htree⟩
  · rintro ⟨d, rest, rfl, rfl⟩
    rw [accepted d rest]
    rfl

/-- A template is accepted exactly where a derivation spells its lexemes, and its tree is the meaning
of that derivation. Nothing stands behind the end, so the derivation uses up all of them. -/
theorem parse_eq_ok_iff {input : String} {lexemes : List Lexeme} {tree : Node}
    (h : tokenize input = .ok lexemes) :
    Node.parse input = .ok tree ↔ ∃ d : Derivation .template, Spells d lexemes ∧ d.tree false = tree := by
  have to_tokens : Node.parse input = .ok tree ↔
      Node.ofTokens? (lexemes.map Lexeme.token) = .ok tree := by
    simp only [Node.parse, h, bind, Except.bind]
    cases Node.ofTokens? (lexemes.map Lexeme.token) <;> simp [pure, Except.pure, throw, throwThe,
      MonadExceptOf.throw]
  rw [to_tokens, ofTokens?_eq_ok_iff]
  constructor
  · rintro ⟨d, rest, htokens, htree⟩
    obtain ⟨front, hfront, no_eof⟩ := tokens_of_tokenize h
    refine ⟨d, ?_, htree⟩
    -- `eof` is read only once, so what follows it in the derived tokens is nothing.
    have rest_nil : rest = [] := by
      rcases List.eq_nil_or_concat rest with hrest | ⟨more, last, hrest⟩
      · exact hrest
      · have heq : front ++ [.eof] = (d.tokens ++ .eof :: more) ++ [last] := by
          rw [← hfront, htokens, hrest]
          simp
        have := (List.append_inj' heq rfl).1
        exact absurd (by rw [this]; simp) no_eof
    rw [Spells, htokens, rest_nil]
  · rintro ⟨d, hspells, htree⟩
    exact ⟨d, [], hspells, htree⟩

/-- The parser accepts exactly its grammar: a tokenized template is parsed if and only if a
derivation spells its lexemes, and then that is the only one and the result is its meaning. -/
theorem parse_accepts_grammar {input : String} {lexemes : List Lexeme}
    (h : tokenize input = .ok lexemes) :
    ((∃ tree, Node.parse input = .ok tree) ↔ ∃ d : Derivation .template, Spells d lexemes) ∧
      ∀ d : Derivation .template, Spells d lexemes →
        Node.parse input = .ok (d.tree false) ∧
          ∀ d' : Derivation .template, Spells d' lexemes → d' = d := by
  refine ⟨⟨?_, ?_⟩, ?_⟩
  · rintro ⟨tree, htree⟩
    obtain ⟨d, hspells, -⟩ := (parse_eq_ok_iff h).mp htree
    exact ⟨d, hspells⟩
  · rintro ⟨d, hspells⟩
    exact ⟨d.tree false, (parse_eq_ok_iff h).mpr ⟨d, hspells, rfl⟩⟩
  · intro d hspells
    exact ⟨(parse_eq_ok_iff h).mpr ⟨d, hspells, rfl⟩, fun d' hspells' => hspells.unique hspells'⟩

/-- `!@.a == null && ($.xs[*][?@.b > 1] || @.c)` as the grammar derives it. -/
def sampleDerivation : Derivation .template :=
  let test : Derivation .filter := .bracketed (.or (.and (.plain
    (.pair (.field .here ["b"] (by simp)) .greater (.atom (.integer 1)))) .andEnd) .orEnd)
  let group : Derivation .unary := .group (.or
    (.and (.plain (.single (.test .document ["xs"] (by simp) test))) .andEnd)
    (.orMore (.and (.plain (.single (.field .here ["c"] (by simp)))) .andEnd) .orEnd))
  let negation : Derivation .unary :=
    .not (.plain (.pair (.field .here ["a"] (by simp)) .equal (.atom .null)))
  .whole (.bracketed (.or (.and negation (.andMore group .andEnd)) .orEnd))

/-- The sign `!` takes the whole null test, and `@` is the element in the test of `xs` only. -/
theorem parse_accepts_sample :
    (∃ lexemes, tokenize "$[?!@.a == null && ($.xs[*][?@.b > 1] || @.c)]" = .ok lexemes) ∧
      Node.parse "$[?!@.a == null && ($.xs[*][?@.b > 1] || @.c)]" =
        .ok (.and (.not (.isNull (.field .globalScope "a")))
          [.or (.collection (.object .globalScope "xs")
              (.between (.field .item "b") .greaterThan (.literal (.integer 1))))
            [.field .globalScope "c"]]) := by
  have tokenized : tokenize "$[?!@.a == null && ($.xs[*][?@.b > 1] || @.c)]" = .ok _ := rfl
  exact ⟨⟨_, tokenized⟩, ((parse_accepts_grammar tokenized).2 sampleDerivation rfl).1⟩

end DataFilter
