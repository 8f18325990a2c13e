import DataFilter.Proofs.Evaluation.Failing
import DataFilter.Proofs.Sql.Failing

/-!
# Templates do not go wrong

Whatever template is read and whatever parameters fill it, its use fails for reasons that lie
outside of it: in the names of a schema, or in the data that it is decided against.
-/

namespace DataFilter.Specification

/-- With these parameters, which make this tree of it, a specification fails for reasons outside of
it only. -/
structure FailsOutside (spec : Specification) (params : Parameters) (tree : Node) : Prop where
  /-- Where no table is known, it has SQL. -/
  unknown : ∃ compiled, spec.compile params .unknown = .ok compiled
  /-- Where it has none for a table, a name of the schema may not stand in SQL. -/
  schema : ∀ schema table e, spec.compile params (.ofTable schema table) = .error e →
    ∃ name ∈ schema.names ++ schema.stems, Sql.isIdentifier name = false ∧
      e = .compilation (.invalidIdentifier name)
  /-- Where it cannot be decided, by whatever rules, the data is to blame. -/
  data : ∀ operators context, context.FailsByData →
    ∀ e, tree.decideWith operators context = .error e → e.isStructural = false

/-- Templates that are read do not go wrong, once their placeholders are filled. -/
theorem failsOutside_of_parse {template : String} {spec : Specification}
    (parsed : parse template = .ok spec) {params : Parameters} {tree : Node}
    (filled : spec.bind params = .ok tree) : spec.FailsOutside params tree := by
  obtain ⟨read, htree, ⟨⟩⟩ := bind_eq_ok parsed
  have fills : Node.Fills params read tree := by
    rw [bind_eq] at filled
    exact Node.fills_of_bind filled
  have grounded : tree.IsGrounded false := fills.isGrounded (isGrounded_of_parse htree)
  have bound : tree.hasPlaceholders = false := fills.hasPlaceholders
  have compiles (around : Sql.Surroundings) :
      (⟨template, read⟩ : Specification).compile params around =
        (Sql.ofNode around tree).mapError .compilation := by
    rw [Specification.compile, filled]
    rfl
  -- that deciding fails for no other reason is known of any grounded tree
  refine ⟨?_, ?_, fun operators _ data => onlyFails_decideWith grounded bound operators data⟩
  · obtain ⟨compiled, hcompiled⟩ := Sql.ofNode_unknown_eq_ok grounded bound
    refine ⟨compiled, ?_⟩
    rw [compiles, hcompiled]
    rfl
  · intro schema table e failed
    rw [compiles] at failed
    cases hresult : Sql.ofNode (.ofTable schema table) tree with
    | ok compiled =>
        rw [hresult] at failed
        cases failed
    | error reason =>
        rw [hresult] at failed
        cases failed
        obtain ⟨name, hname, invalid, rfl⟩ :=
          Sql.onlyFails_ofNode grounded bound (.ofTable schema table) reason hresult
        exact ⟨name, hname, invalid, rfl⟩

/-- `$.Items[*][?@.price > … && @.tags[*][?@.name == …]]` -/
def itemTree (price name : Operand) : Node :=
  .collection (.object .globalScope "Items")
    (.between (.between (.field .item "price") .greaterThan (.value price)) .and
      (.collection (.object .item "tags")
        (.between (.field .item "name") .equal (.value name))))

open Grammar in
/-- `$.Items[*][?@.price > %d && @.tags[*][?@.name == %(tag)s]]` as the grammar derives it. -/
def itemDerivation : Derivation .template :=
  let tag : Derivation .filter := .bracketed (.or (.and (.plain (.pair
    (.field .here ["name"] (by simp)) .equal (.atom (.placeholder ⟨.name "tag", .any⟩)))) .andEnd)
    .orEnd)
  let price : Derivation .unary := .plain (.pair (.field .here ["price"] (by simp)) .greater
    (.atom (.placeholder ⟨.position 0, .integer⟩)))
  .elements ["Items"] (by simp) (.bracketed (.or (.and price
    (.andMore (.plain (.single (.test .here ["tags"] (by simp) tag))) .andEnd)) .orEnd))

/-- The template with its tree. -/
def itemSpecification : Specification :=
  ⟨"$.Items[*][?@.price > %d && @.tags[*][?@.name == %(tag)s]]",
    itemTree (.placeholder ⟨.position 0, .integer⟩) (.placeholder ⟨.name "tag", .any⟩)⟩

/-- One collection in the test of another, and placeholders of both kinds. -/
theorem failsOutside_itemSpecification :
    parse "$.Items[*][?@.price > %d && @.tags[*][?@.name == %(tag)s]]" = .ok itemSpecification ∧
      itemSpecification.bind ⟨[.integer 3], [("tag", .text "new")]⟩ =
        .ok (itemTree (.literal (.integer 3)) (.literal (.text "new"))) ∧
      itemSpecification.FailsOutside ⟨[.integer 3], [("tag", .text "new")]⟩
        (itemTree (.literal (.integer 3)) (.literal (.text "new"))) := by
  have tokenized :
      tokenize "$.Items[*][?@.price > %d && @.tags[*][?@.name == %(tag)s]]" = .ok _ := rfl
  have read : Node.parse "$.Items[*][?@.price > %d && @.tags[*][?@.name == %(tag)s]]" =
      .ok itemSpecification.tree :=
    (parse_eq_ok_iff tokenized).mpr ⟨itemDerivation, rfl, rfl⟩
  have parsed : parse "$.Items[*][?@.price > %d && @.tags[*][?@.name == %(tag)s]]" =
      .ok itemSpecification := by
    rw [parse, read]
    rfl
  exact ⟨parsed, rfl, failsOutside_of_parse parsed rfl⟩

end DataFilter.Specification
