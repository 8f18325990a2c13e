import DataFilter.Proofs.Operation.Ranks
import Mathlib.Algebra.Order.Field.Rat
import Mathlib.Tactic.FieldSimp

/-!
# Which comparisons of numbers are transitive

Numbers of one type are compared exactly. Numbers of two types are compared after a conversion, and
where all comparisons of three numbers agree with one rank of them, the order is passed on. This is
so unless the one in the middle meets its neighbours after a conversion that they do not go through
when they meet each other (`Value.OutOfLine`): two whole numbers with one binary number between
them may both be equal to it and different from each other. If nothing is lost in the conversions,
the order is passed on there as well.
-/

namespace DataFilter

namespace Value

/-! ## Finite numbers and their order -/

/-- Whole numbers, decimals and finite binary numbers. -/
def isFiniteNumber : Value → Bool
  | integer _ | decimal _ => true
  | float x => x.isFinite
  | _ => false

/-- A comparison says that one number is at most the other. -/
def Leq (a b : Value) : Prop := Operator.lessThanEqual.holds (a.compare? b) = true

section Leq

variable {a b c : Value}

theorem isNumeric_of_isFiniteNumber (h : a.isFiniteNumber = true) :
    OperatorTable.isNumeric a.type = true := by
  cases a <;> first | rfl | cases h

theorem isOrdered_of_isFiniteNumber (left : a.isFiniteNumber = true)
    (right : b.isFiniteNumber = true) : OperatorTable.isOrdered a.type b.type = true := by
  rw [OperatorTable.isOrdered, isNumeric_of_isFiniteNumber left, isNumeric_of_isFiniteNumber right]
  rfl

/-- Where a comparison is that of some ranks, so is what it says. -/
theorem leq_iff_of_compare? {α : Type} [LinearOrder α] {p q : α}
    (h : a.compare? b = some (compare p q)) : Leq a b ↔ p ≤ q := by
  unfold Leq Operator.holds
  rw [h]
  rcases lt_trichotomy p q with less | same | more
  · rw [compare_lt_iff_lt.mpr less]
    exact iff_of_true rfl less.le
  · rw [compare_eq_iff_eq.mpr same]
    exact iff_of_true rfl same.le
  · rw [compare_gt_iff_gt.mpr more]
    exact iff_of_false Bool.false_ne_true more.not_ge

/-- Two values are the same if each is at most the other. -/
theorem compare?_eq_some_eq_iff : a.compare? b = some .eq ↔ Leq a b ∧ Leq b a := by
  unfold Leq Operator.holds
  rw [← compare?_swap a b]
  cases a.compare? b with
  | none => simp
  | some order => cases order <;> simp

end Leq

/-! ## Exact values -/

/-- What a finite number is exactly. -/
def amount : Value → ℚ
  | integer n => n.toInt
  | float x => x.signedUnits / Binary64.one
  | decimal d => d.signed / 10 ^ d.scale
  | _ => 0

/-- Nothing is lost when a binary number and a decimal are compared: the binary number is turned
into a decimal, or if there is none, the decimal into a binary number. -/
def BinaryMeetsDecimal (x : Binary64) (d : Decimal) : Prop :=
  match Decimal.ofBinary64? x with
  | some exact => amount (decimal exact) = amount (float x)
  | none => amount (float d.toBinary64) = amount (decimal d)

/-- Nothing is lost in the conversion that two numbers go through to be compared. -/
def MeetsExactly : Value → Value → Prop
  | integer n, float _ | float _, integer n => amount (float (.ofInt n.toInt)) = n.toInt
  | float x, decimal d | decimal d, float x => BinaryMeetsDecimal x d
  | _, _ => True

theorem MeetsExactly.symm {a b : Value} (h : MeetsExactly a b) : MeetsExactly b a := by
  cases a <;> cases b <;> exact h

/-- Whole numbers are in the same order when they are divided by one number. -/
theorem compare_div {k : ℚ} (pos : 0 < k) (m n : Int) :
    compare ((m : ℚ) / k) (n / k) = compare m n := by
  rcases lt_trichotomy m n with less | rfl | more
  · rw [compare_lt_iff_lt.mpr less, compare_lt_iff_lt]
    exact div_lt_div_of_pos_right (Int.cast_lt.mpr less) pos
  · exact (compare_eq_iff_eq.mpr rfl).trans (compare_eq_iff_eq.mpr rfl).symm
  · rw [compare_gt_iff_gt.mpr more, compare_gt_iff_gt]
    exact div_lt_div_of_pos_right (Int.cast_lt.mpr more) pos

theorem compare?_of_floats {x y : Binary64} (left : x.isFinite = true) (right : y.isFinite = true) :
    x.compare? y = some (compare (amount (float x)) (amount (float y))) := by
  have pos : (0 : ℚ) < Binary64.one := Nat.cast_pos.mpr Binary64.one_pos
  rw [Binary64.compare?_of_finite left right]
  exact congrArg some (compare_div pos _ _).symm

theorem amount_decimal (d : Decimal) : amount (decimal d) = d.signedParts / 10 ^ 28 := by
  have scaled : (10 : ℚ) ^ 28 = 10 ^ d.scale * 10 ^ (28 - d.scale) := by
    rw [← pow_add, Nat.add_sub_cancel' d.scale_le]
  rw [Decimal.signedParts_eq, scaled, amount]
  push_cast
  field_simp

theorem compare_decimals (d e : Decimal) :
    d.compare e = compare (amount (decimal d)) (amount (decimal e)) := by
  rw [Decimal.compare_eq, amount_decimal, amount_decimal, compare_div (by positivity)]

theorem amount_ofInteger (n : Integer) : amount (decimal (.ofInteger n)) = n.toInt := by
  have signed : (Decimal.ofInteger n).signed = n.toInt := by
    unfold Decimal.signed Decimal.ofInteger
    dsimp only
    split
    · rename_i negative
      have := of_decide_eq_true negative
      omega
    · rename_i positive
      rw [decide_eq_true_eq] at positive
      omega
  rw [amount, signed]
  exact div_one _

/-- A binary number and a decimal are compared exactly, unless something is lost between them. -/
theorem compareFloatDecimal?_of_exact {x : Binary64} {d : Decimal} (finite : x.isFinite = true)
    (h : BinaryMeetsDecimal x d) :
    compareFloatDecimal? x d = some (compare (amount (float x)) (amount (decimal d))) := by
  unfold compareFloatDecimal?
  unfold BinaryMeetsDecimal at h
  cases found : Decimal.ofBinary64? x with
  | some exact =>
      rw [found] at h
      dsimp only at h ⊢
      rw [compare_decimals, h]
  | none =>
      rw [found] at h
      dsimp only at h ⊢
      rw [compare?_of_floats finite (Decimal.atMost_toBinary64 d).isFinite, h]

/-- Two numbers are compared exactly, unless something is lost in a conversion. -/
theorem compare?_of_meetsExactly {a b : Value} (left : a.isFiniteNumber = true)
    (right : b.isFiniteNumber = true) (h : MeetsExactly a b) :
    a.compare? b = some (compare a.amount b.amount) := by
  cases a with
  | integer m =>
      cases b with
      | integer n =>
          have cast := compare_div one_pos m.toInt n.toInt
          rw [div_one, div_one] at cast
          exact congrArg some cast.symm
      | float y =>
          show (Binary64.ofInt m.toInt).compare? y = _
          rw [compare?_of_floats (atMost_ofInteger m).isFinite right, h]
          rfl
      | decimal e =>
          show some ((Decimal.ofInteger m).compare e) = _
          rw [compare_decimals, amount_ofInteger]
          rfl
      | _ => cases right
  | float x =>
      cases b with
      | integer n =>
          show x.compare? (Binary64.ofInt n.toInt) = _
          rw [compare?_of_floats left (atMost_ofInteger n).isFinite, h]
          rfl
      | float y => exact compare?_of_floats left right
      | decimal e => exact compareFloatDecimal?_of_exact left h
      | _ => cases right
  | decimal d =>
      cases b with
      | integer n =>
          show some (d.compare (.ofInteger n)) = _
          rw [compare_decimals, amount_ofInteger]
          rfl
      | float y =>
          show (compareFloatDecimal? y d).map Ordering.swap = _
          rw [compareFloatDecimal?_of_exact right h]
          exact congrArg some Std.OrientedCmp.eq_swap.symm
      | decimal e => exact congrArg some (compare_decimals d e)
      | _ => cases right
  | _ => cases left

/-! ## Ranks -/

/-- The rank among whole numbers and binary numbers. -/
def binaryRank : Value → Int
  | integer n => (Binary64.ofInt n.toInt).signedUnits
  | float x => x.signedUnits
  | _ => 0

/-- The rank among decimals and binary numbers. -/
noncomputable def decimalRank : Value → Int
  | float x => x.rank
  | decimal d => d.rank
  | _ => 0

section Ranks

variable {a b : Value}

/-- A comparison in which a binary number takes part, but no decimal, is one of ranks. -/
theorem compare?_eq_binaryRank (left : a.isFiniteNumber = true) (right : b.isFiniteNumber = true)
    (whole : a.type ≠ .decimal ∧ b.type ≠ .decimal) (binary : a.type = .float ∨ b.type = .float) :
    a.compare? b = some (compare a.binaryRank b.binaryRank) := by
  cases a with
  | integer m =>
      cases b with
      | float y =>
          show (Binary64.ofInt m.toInt).compare? y = _
          rw [Binary64.compare?_of_finite (atMost_ofInteger m).isFinite right]
          rfl
      | integer n => rcases binary with h | h <;> cases h
      | decimal e => exact absurd rfl whole.2
      | _ => cases right
  | float x =>
      cases b with
      | float y => exact Binary64.compare?_of_finite left right
      | integer n =>
          show x.compare? (Binary64.ofInt n.toInt) = _
          rw [Binary64.compare?_of_finite left (atMost_ofInteger n).isFinite]
          rfl
      | decimal e => exact absurd rfl whole.2
      | _ => cases right
  | decimal d => exact absurd rfl whole.1
  | _ => cases left

/-- No comparison without decimals contradicts the ranks. -/
theorem binaryRank_mono (left : a.isFiniteNumber = true) (right : b.isFiniteNumber = true)
    (whole : a.type ≠ .decimal ∧ b.type ≠ .decimal) (h : Leq a b) :
    a.binaryRank ≤ b.binaryRank := by
  by_cases binary : a.type = .float ∨ b.type = .float
  · exact (leq_iff_of_compare? (compare?_eq_binaryRank left right whole binary)).mp h
  · cases a with
    | integer m =>
        cases b with
        | integer n =>
            have order : (integer m).compare? (integer n) = some (compare m.toInt n.toInt) := rfl
            rw [binaryRank, binaryRank]
            exact Binary64.signedUnits_ofInt_mono (atMost_ofInteger m).isFinite
              (atMost_ofInteger n).isFinite
              ((leq_iff_of_compare? order).mp h)
        | float y => exact absurd (.inr rfl) binary
        | decimal e => exact absurd rfl whole.2
        | _ => cases right
    | float x => exact absurd (.inl rfl) binary
    | decimal d => exact absurd rfl whole.1
    | _ => cases left

/-- A comparison of a binary number and a decimal is one of ranks. -/
theorem compare?_eq_decimalRank (left : a.isFiniteNumber = true) (right : b.isFiniteNumber = true)
    (fraction : a.type ≠ .integer ∧ b.type ≠ .integer) (mixed : a.type ≠ b.type) :
    a.compare? b = some (compare a.decimalRank b.decimalRank) := by
  cases a with
  | float x =>
      cases b with
      | decimal e => exact compareFloatDecimal?_eq left e
      | float y => exact absurd rfl mixed
      | integer n => exact absurd rfl fraction.2
      | _ => cases right
  | decimal d =>
      cases b with
      | float y =>
          show (compareFloatDecimal? y d).map Ordering.swap = _
          rw [compareFloatDecimal?_eq right d]
          exact congrArg some Std.OrientedCmp.eq_swap.symm
      | decimal e => exact absurd rfl mixed
      | integer n => exact absurd rfl fraction.2
      | _ => cases right
  | integer m => exact absurd rfl fraction.1
  | _ => cases left

/-- No comparison without whole numbers contradicts the ranks. -/
theorem decimalRank_mono (left : a.isFiniteNumber = true) (right : b.isFiniteNumber = true)
    (fraction : a.type ≠ .integer ∧ b.type ≠ .integer) (h : Leq a b) :
    a.decimalRank ≤ b.decimalRank := by
  by_cases mixed : a.type = b.type
  · cases a with
    | float x =>
        cases b with
        | float y =>
            have order : (float x).compare? (float y) =
                some (compare x.signedUnits y.signedUnits) := Binary64.compare?_of_finite left right
            exact Binary64.rank_mono left right ((leq_iff_of_compare? order).mp h)
        | _ => cases mixed
    | decimal d =>
        cases b with
        | decimal e =>
            have order : (decimal d).compare? (decimal e) =
                some (compare d.signedParts e.signedParts) := congrArg some (Decimal.compare_eq d e)
            exact Decimal.rank_mono ((leq_iff_of_compare? order).mp h)
        | _ => cases mixed
    | integer m => exact absurd rfl fraction.1
    | _ => cases left
  · exact (leq_iff_of_compare? (compare?_eq_decimalRank left right fraction mixed)).mp h

end Ranks

/-! ## Three numbers -/

/-- Three numbers of which no one rank tells the order. The one in the middle meets its neighbours
after conversions that they do not go through when they meet each other. -/
inductive OutOfLine (a b c : Value) : Prop where
  /-- Different whole numbers may be turned into one binary number. -/
  | wholes (left : a.type = .integer) (middle : b.type = .float) (right : c.type = .integer)
  /-- Different binary numbers may be turned into one decimal. -/
  | binaries (left : a.type = .float) (middle : b.type = .decimal) (right : c.type = .float)
  /-- Different decimals may be turned into `2^96`, which no decimal is. -/
  | limit {x : Binary64} (left : a.type = .decimal) (middle : b = .float x)
      (edge : x.signedUnits.natAbs = coefficientLimit * Binary64.one) (right : c.type = .decimal)
  /-- Numbers of all types: each pair is converted in its own way. -/
  | all (types : ∀ type ∈ OperatorTable.numberTypes, type ∈ [a.type, b.type, c.type])

theorem OutOfLine.symm {a b c : Value} (h : OutOfLine a b c) : OutOfLine c b a := by
  cases h with
  | wholes left middle right => exact .wholes right middle left
  | binaries left middle right => exact .binaries right middle left
  | limit left middle edge right => exact .limit right middle edge left
  | all types =>
      refine .all fun type htype => ?_
      have found := types type htype
      simp only [List.mem_cons, List.not_mem_nil, or_false] at found ⊢
      rcases found with h | h | h
      · exact .inr (.inr h)
      · exact .inr (.inl h)
      · exact .inl h

section Three

variable {a b c : Value}

/-- A binary number between two decimals, unless it is the one beyond them. -/
theorem leq_trans_of_decimals {d e : Decimal} {x : Binary64} (finite : x.isFinite = true)
    (inside : x.signedUnits.natAbs ≠ coefficientLimit * Binary64.one)
    (left : Leq (decimal d) (float x)) (right : Leq (float x) (decimal e)) :
    Leq (decimal d) (decimal e) := by
  cases found : Decimal.ofBinary64? x with
  | some q =>
      -- both comparisons are exact ones with the decimal of the binary number
      have order : (float x).compare? (decimal e) = some (q.compare e) := by
        show compareFloatDecimal? x e = _
        rw [compareFloatDecimal?, found]
      have order' : (decimal d).compare? (float x) = some (d.compare q) := by
        show (compareFloatDecimal? x d).map Ordering.swap = _
        rw [compareFloatDecimal?, found]
        exact congrArg some (Decimal.compare_swap q d)
      rw [Decimal.compare_eq] at order order'
      have order'' : (decimal d).compare? (decimal e) =
          some (compare d.signedParts e.signedParts) := congrArg some (Decimal.compare_eq d e)
      rw [leq_iff_of_compare? order'']
      exact le_trans ((leq_iff_of_compare? order').mp left) ((leq_iff_of_compare? order).mp right)
  | none =>
      -- the binary number is greater than all decimals, or less than all of them
      have beyond := Binary64.limitParts_lt_rank finite found inside
      have below := Decimal.natAbs_rank_le d
      have below' := Decimal.natAbs_rank_le e
      have up : d.rank ≤ x.rank :=
        decimalRank_mono (a := decimal d) (b := float x) rfl finite (by simp [type]) left
      have down : x.rank ≤ e.rank :=
        decimalRank_mono (a := float x) (b := decimal e) finite rfl (by simp [type]) right
      omega

/-- Without binary numbers all comparisons are exact. -/
theorem meetsExactly_of_not_float (left : a.type ≠ .float) (right : b.type ≠ .float) :
    MeetsExactly a b := by
  cases a <;> cases b <;> first | exact True.intro | exact absurd rfl left | exact absurd rfl right

/-- Where all three comparisons are exact, the order is passed on. -/
theorem leq_trans_of_exact (ha : a.isFiniteNumber = true) (hb : b.isFiniteNumber = true)
    (hc : c.isFiniteNumber = true) (exact : MeetsExactly a b ∧ MeetsExactly b c ∧ MeetsExactly a c)
    (left : Leq a b) (right : Leq b c) : Leq a c := by
  rw [leq_iff_of_compare? (compare?_of_meetsExactly ha hb exact.1)] at left
  rw [leq_iff_of_compare? (compare?_of_meetsExactly hb hc exact.2.1)] at right
  rw [leq_iff_of_compare? (compare?_of_meetsExactly ha hc exact.2.2)]
  exact left.trans right

theorem type_of_isFiniteNumber (h : a.isFiniteNumber = true) :
    a.type = .integer ∨ a.type = .float ∨ a.type = .decimal := by
  cases a <;> first | exact .inl rfl | exact .inr (.inl rfl) | exact .inr (.inr rfl) | cases h

theorem mem_types {t : ValueType} (h : ¬(a.type ≠ t ∧ b.type ≠ t ∧ c.type ≠ t)) :
    t ∈ [a.type, b.type, c.type] := by
  refine Classical.byContradiction fun missing => h ?_
  simp only [List.mem_cons, List.not_mem_nil, or_false, not_or] at missing
  exact ⟨Ne.symm missing.1, Ne.symm missing.2.1, Ne.symm missing.2.2⟩

/-- Where the three numbers are in line, the order is passed on. -/
theorem leq_trans_of_in_line (ha : a.isFiniteNumber = true) (hb : b.isFiniteNumber = true)
    (hc : c.isFiniteNumber = true) (line : ¬OutOfLine a b c) (left : Leq a b) (right : Leq b c) :
    Leq a c := by
  by_cases noFloat : a.type ≠ .float ∧ b.type ≠ .float ∧ c.type ≠ .float
  · obtain ⟨fa, fb, fc⟩ := noFloat
    exact leq_trans_of_exact ha hb hc ⟨meetsExactly_of_not_float fa fb,
      meetsExactly_of_not_float fb fc, meetsExactly_of_not_float fa fc⟩ left right
  by_cases noDecimal : a.type ≠ .decimal ∧ b.type ≠ .decimal ∧ c.type ≠ .decimal
  · obtain ⟨da, db, dc⟩ := noDecimal
    have outer : a.type = .float ∨ c.type = .float := by
      refine Classical.byContradiction fun whole => ?_
      obtain ⟨fa, fc⟩ := not_or.mp whole
      have middle : b.type = .float := Classical.byContradiction fun fb => noFloat ⟨fa, fb, fc⟩
      exact line (.wholes ((type_of_isFiniteNumber ha).resolve_right (not_or.mpr ⟨fa, da⟩)) middle
        ((type_of_isFiniteNumber hc).resolve_right (not_or.mpr ⟨fc, dc⟩)))
    rw [leq_iff_of_compare? (compare?_eq_binaryRank ha hc ⟨da, dc⟩ outer)]
    exact (binaryRank_mono ha hb ⟨da, db⟩ left).trans (binaryRank_mono hb hc ⟨db, dc⟩ right)
  by_cases noInteger : a.type ≠ .integer ∧ b.type ≠ .integer ∧ c.type ≠ .integer
  · obtain ⟨ia, ib, ic⟩ := noInteger
    by_cases mixed : a.type = c.type
    · rcases (type_of_isFiniteNumber ha).resolve_left ia with fa | da
      · have middle : b.type = .decimal := by
          refine Classical.byContradiction fun db => noDecimal ⟨?_, db, ?_⟩
          · rw [fa]
            decide
          · rw [← mixed, fa]
            decide
        exact absurd (.binaries fa middle (mixed ▸ fa)) line
      · cases a with
        | decimal d =>
            cases c with
            | decimal e =>
                cases b with
                | float x =>
                    exact leq_trans_of_decimals hb (fun edge => line (.limit rfl rfl edge rfl))
                      left right
                | decimal _ => exact absurd (by simp [type]) noFloat
                | integer _ => exact absurd rfl ib
                | _ => cases hb
            | _ => cases mixed
        | _ => cases da
    · rw [leq_iff_of_compare? (compare?_eq_decimalRank ha hc ⟨ia, ic⟩ mixed)]
      exact (decimalRank_mono ha hb ⟨ia, ib⟩ left).trans (decimalRank_mono hb hc ⟨ib, ic⟩ right)
  · refine absurd (.all fun type htype => ?_) line
    simp only [OperatorTable.numberTypes, List.mem_cons, List.not_mem_nil, or_false] at htype
    rcases htype with rfl | rfl | rfl
    · exact mem_types noInteger
    · exact mem_types noFloat
    · exact mem_types noDecimal

end Three

end Value

namespace OperatorTable

theorem lessThanEqual_iff {a b : Value} (left : a.isFiniteNumber = true)
    (right : b.isFiniteNumber = true) :
    standard.applyBinary a .lessThanEqual b = .ok (.boolean true) ↔ a.Leq b := by
  rw [applyBinary_of_ordered rfl (Value.isOrdered_of_isFiniteNumber left right)]
  simp [Value.Leq]

theorem equal_iff {a b : Value} (left : a.isFiniteNumber = true) (right : b.isFiniteNumber = true) :
    standard.applyBinary a .equal b = .ok (.boolean true) ↔ a.Leq b ∧ b.Leq a := by
  rw [applyBinary_of_ordered rfl (Value.isOrdered_of_isFiniteNumber left right),
    ← Value.compare?_eq_some_eq_iff]
  simp [Operator.holds]

/-- `<=` and `==` of finite numbers are transitive, whatever the types, unless the numbers are out
of line; and then as well if nothing is lost in the conversions. -/
theorem comparisons_are_transitive {a b c : Value} (ha : a.isFiniteNumber = true)
    (hb : b.isFiniteNumber = true) (hc : c.isFiniteNumber = true)
    (h : ¬Value.OutOfLine a b c ∨ a.MeetsExactly b ∧ b.MeetsExactly c ∧ a.MeetsExactly c) :
    (standard.applyBinary a .lessThanEqual b = .ok (.boolean true) →
      standard.applyBinary b .lessThanEqual c = .ok (.boolean true) →
        standard.applyBinary a .lessThanEqual c = .ok (.boolean true)) ∧
    (standard.applyBinary a .equal b = .ok (.boolean true) →
      standard.applyBinary b .equal c = .ok (.boolean true) →
        standard.applyBinary a .equal c = .ok (.boolean true)) := by
  rw [lessThanEqual_iff ha hb, lessThanEqual_iff hb hc, lessThanEqual_iff ha hc, equal_iff ha hb,
    equal_iff hb hc, equal_iff ha hc]
  have up (left : a.Leq b) (right : b.Leq c) : a.Leq c := by
    rcases h with line | exact
    · exact Value.leq_trans_of_in_line ha hb hc line left right
    · exact Value.leq_trans_of_exact ha hb hc exact left right
  have down (left : c.Leq b) (right : b.Leq a) : c.Leq a := by
    rcases h with line | ⟨exact, exact', exact''⟩
    · exact Value.leq_trans_of_in_line hc hb ha (mt Value.OutOfLine.symm line) left right
    · exact Value.leq_trans_of_exact hc hb ha ⟨exact'.symm, exact.symm, exact''.symm⟩ left right
  exact ⟨up, fun left right => ⟨up left.1 right.1, down right.2 left.2⟩⟩

/-- A tenth as a binary number equals the decimals `0.10` and `0.1`. -/
theorem comparisons_are_transitive_for_tenths :
    standard.applyBinary (.float ((Binary64.ofInt 1).div (.ofInt 10))) .equal
      (.decimal ⟨false, 1, 1, by decide, by decide⟩) = .ok (.boolean true) := by
  have finite : (Value.float ((Binary64.ofInt 1).div (.ofInt 10))).isFiniteNumber = true := by
    decide +kernel
  have order : (Value.float ((Binary64.ofInt 1).div (.ofInt 10))).compare?
      (.decimal ⟨false, 10, 2, by decide, by decide⟩) = some .eq := by
    decide +kernel
  have order' : (Value.decimal ⟨false, 10, 2, by decide, by decide⟩).compare?
      (.decimal ⟨false, 1, 1, by decide, by decide⟩) = some .eq := by
    decide +kernel
  refine (comparisons_are_transitive (b := .decimal ⟨false, 10, 2, by decide, by decide⟩) finite rfl
    rfl (.inl ?_)).2 ?_ ?_
  · intro line
    cases line with
    | wholes left => cases left
    | binaries left middle right => cases right
    | limit left => cases left
    | all types => exact absurd (types .integer (by decide)) (by simp [Value.type])
  · rw [applyBinary_of_ordered rfl rfl, order]
    rfl
  · rw [applyBinary_of_ordered rfl rfl, order']
    rfl

/-! ## Numbers out of line -/

/-- Three numbers for each way to be out of line. -/
def outOfLine : List (Value × Value × Value) :=
  let whole : Int → Value := fun n => .integer (.wrap n)
  let binary : Int → Value := fun n => .float (.ofInt n)
  let fraction : Int → Int → Value := fun n m => .float ((Binary64.ofInt n).div (.ofInt m))
  let decimal : Int → Value := fun n => .decimal (.ofInteger (.wrap n))
  let large : Nat → Value := fun n => ((Decimal.ofParts? false n 0).map .decimal).getD .null
  [(whole 9007199254740993, binary 9007199254740992, whole 9007199254740992),
    (binary 4503599627370496, decimal 4503599627370496, fraction 9007199254740991 2),
    (large 79228162514264337593543950335, binary 79228162514264337593543950336,
      large 79228162514264337593543950334),
    (whole 9007199254740993, binary 9007199254740992, decimal 9007199254740992),
    (decimal 9007199254740996, binary 9007199254740996, whole 9007199254740995),
    (whole 4503599627370496, decimal 4503599627370496, fraction 9007199254740991 2),
    (fraction 4503599627370497 4, decimal 1125899906842624, whole 1125899906842624),
    (decimal 9007199254740993, whole 9007199254740993, binary 9007199254740992),
    (binary 9007199254740996, whole 9007199254740995, decimal 9007199254740995)]

/-- None of the ways to be out of line passes the order on: in all of these the first number equals
the second, the second equals the third, and the first is greater than the third. -/
theorem order_of_outOfLine : ∀ triple ∈ outOfLine,
    triple.1.compare? triple.2.1 = some .eq ∧ triple.2.1.compare? triple.2.2 = some .eq ∧
      triple.1.compare? triple.2.2 = some .gt := by
  decide +kernel

/-- Two whole numbers equal a binary number between them, but the first is greater. -/
theorem comparisons_are_not_transitive :
    let a : Value := .integer (.wrap 9007199254740993)
    let b : Value := .float (.ofInt 9007199254740992)
    let c : Value := .integer (.wrap 9007199254740992)
    (standard.applyBinary a .equal b = .ok (.boolean true) ∧
      standard.applyBinary b .equal c = .ok (.boolean true) ∧
      standard.applyBinary a .equal c = .ok (.boolean false)) ∧
    (standard.applyBinary a .lessThanEqual b = .ok (.boolean true) ∧
      standard.applyBinary b .lessThanEqual c = .ok (.boolean true) ∧
      standard.applyBinary a .lessThanEqual c = .ok (.boolean false)) := by
  intro a b c
  obtain ⟨ab, bc, ac⟩ := order_of_outOfLine (a, b, c) List.mem_cons_self
  dsimp only at ab bc ac
  rw [applyBinary_of_ordered rfl rfl, applyBinary_of_ordered rfl rfl,
    applyBinary_of_ordered rfl rfl, applyBinary_of_ordered rfl rfl, applyBinary_of_ordered rfl rfl,
    applyBinary_of_ordered rfl rfl, ab, bc, ac]
  exact ⟨⟨rfl, rfl, rfl⟩, rfl, rfl, rfl⟩

end OperatorTable

end DataFilter
