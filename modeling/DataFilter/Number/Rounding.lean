/-!
# Rounding a quotient

Every inexact operation of the library rounds an exact quotient of natural numbers once, through
`roundQuotient`. A quotient lies between two neighbouring integers; the nearer one is taken, and
`Tie` says where an exact half goes.
-/

namespace DataFilter

/-- Where an exact half goes. -/
inductive Tie where
  /-- To the even neighbour. -/
  | toEven
  /-- To the larger neighbour. -/
  | up
  deriving DecidableEq, Repr

/-- The integer nearest to `num / den`, for a positive `den`. -/
def roundQuotient (num den : Nat) (tie : Tie) : Nat :=
  let below := num / den
  let twice := 2 * (num % den)
  if twice < den then below
  else if den < twice then below + 1
  else match tie with
    | .toEven => if below % 2 = 0 then below else below + 1
    | .up => below + 1

/-- Rounding never falls below the whole part. -/
theorem div_le_roundQuotient (num den : Nat) (tie : Tie) :
    num / den ≤ roundQuotient num den tie := by
  unfold roundQuotient
  dsimp only
  split
  · exact Nat.le_refl _
  · split
    · exact Nat.le_succ _
    · cases tie
      · dsimp only
        split
        · exact Nat.le_refl _
        · exact Nat.le_succ _
      · exact Nat.le_succ _

/-- Rounding reaches at most the integer above. -/
theorem roundQuotient_le (num den : Nat) (tie : Tie) :
    roundQuotient num den tie ≤ num / den + 1 := by
  unfold roundQuotient
  dsimp only
  split
  · exact Nat.le_succ _
  · split
    · exact Nat.le_refl _
    · cases tie
      · dsimp only
        split
        · exact Nat.le_succ _
        · exact Nat.le_refl _
      · exact Nat.le_refl _

/-- A whole quotient is kept as it is. -/
theorem roundQuotient_of_dvd {num den : Nat} (tie : Tie) (pos : 0 < den) (h : den ∣ num) :
    roundQuotient num den tie = num / den := by
  simp [roundQuotient, Nat.mod_eq_zero_of_dvd h, pos]

end DataFilter
