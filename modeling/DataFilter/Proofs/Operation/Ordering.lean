import DataFilter.Proofs.Number.Monotone
import DataFilter.Proofs.Operation.Dispatch

/-!
# The six comparisons agree

All six comparisons of two values ask one question: which order the values have, if they have one.
So the six agree for each pair of operands, whatever way the order is found. That they agree with
the comparisons of the same operands the other way round is a matter of the order itself, which has
an arm for each pair of types: swapping the operands swaps the order (`Value.compare?_swap`). Among
operands of ordered types only `nan` has no order.
-/

namespace DataFilter

/-! ## The order the other way round -/

namespace Binary64

theorem compare?_swap (x y : Binary64) : (x.compare? y).map Ordering.swap = y.compare? x := by
  cases x with
  | nan => cases y <;> rfl
  | infinite a =>
      cases y with
      | nan => rfl
      | infinite b => cases a <;> cases b <;> rfl
      | finite b n hn => cases a <;> rfl
  | finite a m hm =>
      cases y with
      | nan => rfl
      | infinite b => cases b <;> rfl
      | finite b n hn => exact congrArg some (Int.compare_swap _ _)

/-- Only `nan` has no order. -/
theorem compare?_eq_none_iff {x y : Binary64} : x.compare? y = none ↔ x = nan ∨ y = nan := by
  cases x <;> cases y <;> simp [compare?]

end Binary64

theorem Decimal.compare_swap (a b : Decimal) : (a.compare b).swap = b.compare a :=
  Int.compare_swap _ _

namespace Value

theorem compareFloatDecimal?_eq_none_iff {x : Binary64} {d : Decimal} :
    compareFloatDecimal? x d = none ↔ x = .nan := by
  unfold compareFloatDecimal?
  split
  · rename_i exact found
    constructor
    · intro unordered
      cases unordered
    · rintro rfl
      cases found
  · rw [Binary64.compare?_eq_none_iff, or_iff_left (Decimal.atMost_toBinary64 d).ne_nan]

/-- Swapping the operands swaps the order. -/
theorem compare?_swap (a b : Value) : (a.compare? b).map Ordering.swap = b.compare? a := by
  cases a with
  | integer m =>
      cases b with
      | integer n => exact congrArg some (Int.compare_swap _ _)
      | float y => exact Binary64.compare?_swap (.ofInt m.toInt) y
      | decimal d => exact congrArg some (Decimal.compare_swap (.ofInteger m) d)
      | _ => rfl
  | float x =>
      cases b with
      | integer n => exact Binary64.compare?_swap x (.ofInt n.toInt)
      | float y => exact Binary64.compare?_swap x y
      | _ => rfl
  | decimal d =>
      cases b with
      | integer n => exact congrArg some (Decimal.compare_swap d (.ofInteger n))
      | float y =>
          show ((compareFloatDecimal? y d).map Ordering.swap).map Ordering.swap =
            compareFloatDecimal? y d
          cases compareFloatDecimal? y d with
          | none => rfl
          | some order => exact congrArg some order.swap_swap
      | decimal e => exact congrArg some (Decimal.compare_swap d e)
      | _ => rfl
  | text s =>
      cases b with
      | text t => exact congrArg some Std.OrientedCmp.eq_swap.symm
      | _ => rfl
  | boolean p =>
      cases b with
      | boolean q => cases p <;> cases q <;> rfl
      | _ => rfl
  | instant s =>
      cases b with
      | instant t => exact congrArg some (Int.compare_swap _ _)
      | _ => rfl
  | duration s =>
      cases b with
      | duration t => exact congrArg some (Int.compare_swap _ _)
      | _ => rfl
  | _ => cases b <;> rfl

/-- No integer is too large for a binary number. -/
theorem atMost_ofInteger (n : Integer) :
    (Binary64.ofInt n.toInt).AtMost (2 ^ 63 * Binary64.one) := by
  have small : n.toInt.natAbs ≤ 2 ^ 63 := by
    have := n.lower
    have := n.upper
    omega
  exact Binary64.atMost_ofInt small (by decide)

/-- Values of ordered types have an order, unless one of them is `nan`. -/
theorem compare?_eq_none_iff {a b : Value}
    (ordered : OperatorTable.isOrdered a.type b.type = true) :
    a.compare? b = none ↔ a = .float .nan ∨ b = .float .nan := by
  rcases OperatorTable.isOrdered_iff.mp ordered with numeric | ⟨same, other⟩
  · obtain ⟨left, right⟩ := Bool.and_eq_true_iff.mp numeric
    cases a with
    | integer m =>
        cases b with
        | float y =>
            show (Binary64.ofInt m.toInt).compare? y = none ↔ _
            rw [Binary64.compare?_eq_none_iff, or_iff_right (atMost_ofInteger m).ne_nan]
            simp
        | integer n => simp [compare?]
        | decimal e => simp [compare?]
        | _ => cases right
    | float x =>
        cases b with
        | float y =>
            show x.compare? y = none ↔ _
            rw [Binary64.compare?_eq_none_iff]
            simp
        | integer n =>
            show x.compare? (Binary64.ofInt n.toInt) = none ↔ _
            rw [Binary64.compare?_eq_none_iff, or_iff_left (atMost_ofInteger n).ne_nan]
            simp
        | decimal e =>
            show compareFloatDecimal? x e = none ↔ _
            rw [compareFloatDecimal?_eq_none_iff]
            simp
        | _ => cases right
    | decimal d =>
        cases b with
        | float y =>
            show (compareFloatDecimal? y d).map Ordering.swap = none ↔ _
            rw [Option.map_eq_none_iff, compareFloatDecimal?_eq_none_iff]
            simp
        | integer n => simp [compare?]
        | decimal e => simp [compare?]
        | _ => cases right
    | _ => cases left
  · cases a <;> simp [type] at other <;> cases b <;> simp [type, compare?] at same ⊢

end Value

namespace OperatorTable

/-! ## The six comparisons -/

/-- What the six comparisons say of two operands. -/
structure Compares (a b : Value) (less same greater : Bool) : Prop where
  equal : standard.applyBinary a .equal b = .ok (.boolean same)
  notEqual : standard.applyBinary a .notEqual b = .ok (.boolean !same)
  lessThan : standard.applyBinary a .lessThan b = .ok (.boolean less)
  lessThanEqual : standard.applyBinary a .lessThanEqual b = .ok (.boolean (less || same))
  greaterThan : standard.applyBinary a .greaterThan b = .ok (.boolean greater)
  greaterThanEqual : standard.applyBinary a .greaterThanEqual b = .ok (.boolean (greater || same))

theorem isOrdered_of_supports {left right : ValueType}
    (h : standard.supports left .lessThan right = true) : isOrdered left right = true := by
  cases left <;> cases right <;> first | rfl | cases h

/-- Comparing values of ordered types reads their order. -/
theorem applyBinary_of_ordered {op : Operator} {a b : Value} (comparable : op.isComparison = true)
    (ordered : isOrdered a.type b.type = true) :
    standard.applyBinary a op b = .ok (.boolean (op.holds (a.compare? b))) := by
  have strict : ¬(op = .and ∨ op = .or) := by
    rintro (rfl | rfl) <;> cases comparable
  have left : a ≠ .null := by
    rintro rfl
    cases h : b.type <;> rw [h] at ordered <;> cases ordered
  have right : b ≠ .null := by
    rintro rfl
    cases h : a.type <;> rw [h] at ordered <;> cases ordered
  have found : standard.binary a.type op b.type = some (comparison op) :=
    if_pos (by rw [comparable, ordered, Bool.and_true])
  rw [applyBinary_of_known strict left right, found]
  rfl

theorem compares_of_ordered {a b : Value} (ordered : isOrdered a.type b.type = true) :
    Compares a b (a.compare? b == some .lt) (a.compare? b == some .eq)
      (a.compare? b == some .gt) where
  equal := applyBinary_of_ordered rfl ordered
  notEqual := applyBinary_of_ordered rfl ordered
  lessThan := applyBinary_of_ordered rfl ordered
  lessThanEqual := applyBinary_of_ordered rfl ordered
  greaterThan := applyBinary_of_ordered rfl ordered
  greaterThanEqual := applyBinary_of_ordered rfl ordered

/-- The types of operands that are ordered are so both ways round. -/
theorem isOrdered_comm {left right : ValueType} (h : isOrdered left right = true) :
    isOrdered right left = true := by
  rw [isOrdered_iff] at h ⊢
  rcases h with numeric | ⟨rfl, other⟩
  · exact .inl (by rwa [Bool.and_comm])
  · exact .inr ⟨rfl, other⟩

/-- The six comparisons of values of ordered types agree with one another and with the comparisons
the other way round. One of less, the same and greater holds, and no other; for `nan`, none does. -/
theorem comparisons_agree {a b : Value}
    (supported : standard.supports a.type .lessThan b.type = true) :
    ∃ less same greater : Bool,
      Compares a b less same greater ∧ Compares b a greater same less ∧
        ((a = .float .nan ∨ b = .float .nan) ∧ (less, same, greater) = (false, false, false) ∨
          (a ≠ .float .nan ∧ b ≠ .float .nan) ∧
            (less, same, greater) ∈
              [(true, false, false), (false, true, false), (false, false, true)]) := by
  have ordered := isOrdered_of_supports supported
  have mirrored := compares_of_ordered (isOrdered_comm ordered)
  rw [← Value.compare?_swap a b] at mirrored
  refine ⟨_, _, _, compares_of_ordered ordered, ?_⟩
  have unordered := Value.compare?_eq_none_iff ordered
  cases order : a.compare? b with
  | none =>
      rw [order] at mirrored
      exact ⟨mirrored, .inl ⟨unordered.mp order, rfl⟩⟩
  | some o =>
      rw [order] at mirrored unordered
      have known : a ≠ .float .nan ∧ b ≠ .float .nan := not_or.mp (mt unordered.mpr (by simp))
      cases o with
      | lt => exact ⟨mirrored, .inr ⟨known, by simp⟩⟩
      | eq => exact ⟨mirrored, .inr ⟨known, by simp⟩⟩
      | gt => exact ⟨mirrored, .inr ⟨known, by simp⟩⟩

/-- A binary number beyond all decimals is greater than zero, and zero is less. -/
theorem comparisons_agree_beyond_decimals :
    Compares (.float (.ofInt (10 ^ 40))) (.decimal .zero) false false true ∧
      Compares (.decimal .zero) (.float (.ofInt (10 ^ 40))) true false false := by
  have order : (Value.float (.ofInt (10 ^ 40))).compare? (.decimal .zero) = some .gt := by
    decide +kernel
  obtain ⟨less, same, greater, compared, mirrored, -⟩ :=
    comparisons_agree (a := .float (.ofInt (10 ^ 40))) (b := .decimal .zero) rfl
  have evaluated := compares_of_ordered (a := .float (.ofInt (10 ^ 40))) (b := .decimal .zero) rfl
  rw [order] at evaluated
  obtain rfl : less = false := by
    simpa using compared.lessThan.symm.trans evaluated.lessThan
  obtain rfl : same = false := by
    simpa using compared.equal.symm.trans evaluated.equal
  obtain rfl : greater = true := by
    simpa using compared.greaterThan.symm.trans evaluated.greaterThan
  exact ⟨compared, mirrored⟩

end OperatorTable

end DataFilter
