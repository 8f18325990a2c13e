import Mathlib.Algebra.Group.Nat.Defs
import DataFilter.Number.Integer

/-!
# Decimal digits and their value

Plain decimal text consists of digits, at least one on each side of a point, and the digits on both
sides together are those of the coefficient.
-/

namespace DataFilter

/-- At least one character, and all of them digits. -/
def IsDigits (text : List Char) : Prop := text ≠ [] ∧ ∀ c ∈ text, c.isDigit = true

theorem isDigits_toDigits (n : Nat) : IsDigits (Nat.toDigits 10 n) :=
  ⟨Nat.toDigits_ne_nil, fun _ => Nat.isDigit_of_mem_toDigits (by decide) (by decide)⟩

theorem toList_toString (n : Nat) : (toString n).toList = Nat.toDigits 10 n := Nat.toList_repr

@[simp]
theorem digitsValue_toDigits (n : Nat) : digitsValue (Nat.toDigits 10 n) = n :=
  Nat.ofDigitChars_ten_toDigits

/-- Digits behind others push those to the left. -/
theorem digitsValue_append (front back : List Char) :
    digitsValue (front ++ back) = 10 ^ back.length * digitsValue front + digitsValue back := by
  show Nat.ofDigitChars 10 (front ++ back) 0 = _
  rw [Nat.ofDigitChars_append, Nat.ofDigitChars_eq_ofDigitChars_zero]
  rfl

theorem digitsValue_replicate_zero (n : Nat) : digitsValue (List.replicate n '0') = 0 := by
  show Nat.ofDigitChars 10 (List.replicate n '0') 0 = 0
  rw [Nat.ofDigitChars_replicate_zero, Nat.mul_zero]

theorem toList_pushn (s : String) (c : Char) (n : Nat) :
    (s.pushn c n).toList = s.toList ++ List.replicate n c := by
  rw [String.pushn_eq_repeat_push]
  induction n with
  | zero => simp [Nat.repeat]
  | succ n ih => simp [Nat.repeat, ih, List.replicate_succ']

/-- Filled up with zeros, the digits have the asked width and the same value. -/
theorem paddedDigits_spec {width n : Nat} (hwidth : 0 < width) (h : n < 10 ^ width) :
    IsDigits (paddedDigits width n).toList ∧ (paddedDigits width n).toList.length = width ∧
      digitsValue (paddedDigits width n).toList = n := by
  have hlen : (Nat.toDigits 10 n).length ≤ width :=
    (Nat.length_toDigits_le_iff (by decide) hwidth).mpr h
  have htext : (paddedDigits width n).toList =
      List.replicate (width - (Nat.toDigits 10 n).length) '0' ++ Nat.toDigits 10 n := by
    simp only [paddedDigits, String.toList_append, toList_pushn, toList_toString,
      ← String.length_toList]
    rfl
  have hdigits := isDigits_toDigits n
  rw [htext]
  refine ⟨⟨by simp, ?_⟩, by simp; omega, ?_⟩
  · intro c hc
    rcases List.mem_append.mp hc with hzero | hdigit
    · rw [List.eq_of_mem_replicate hzero]; rfl
    · exact hdigits.2 c hdigit
  · rw [digitsValue_append, digitsValue_replicate_zero, digitsValue_toDigits]
    omega

/-- Behind the point stand `scale` digits, and with those before it they spell the coefficient. -/
theorem plainText_spec (coefficient : Nat) {scale : Nat} (hscale : 0 < scale) :
    ∃ whole fraction, (plainText coefficient scale).toList = whole ++ '.' :: fraction ∧
      IsDigits whole ∧ IsDigits fraction ∧ fraction.length = scale ∧
      digitsValue (whole ++ fraction) = coefficient := by
  have hpow : 0 < 10 ^ scale := Nat.pow_pos (by decide)
  obtain ⟨hdigits, hlen, hvalue⟩ :=
    paddedDigits_spec hscale (Nat.mod_lt coefficient hpow)
  refine ⟨_, _, ?_, isDigits_toDigits (coefficient / 10 ^ scale), hdigits, hlen, ?_⟩
  · simp only [plainText, if_neg (Nat.pos_iff_ne_zero.mp hscale), String.toList_append,
      toList_toString]
    simp
  · rw [digitsValue_append, hlen, hvalue, digitsValue_toDigits]
    exact Nat.div_add_mod coefficient (10 ^ scale)

/-- A minus sign in front of a negative number. -/
def signText (negative : Bool) : List Char := if negative then ['-'] else []

/-- A whole number is written as digits, behind a sign if it is negative. -/
theorem Integer.render_spec (n : Integer) :
    ∃ (negative : Bool) (digits : List Char), n.render.toList = signText negative ++ digits ∧
      IsDigits digits ∧
      (if negative then -(digitsValue digits : Int) else digitsValue digits) = n.toInt := by
  obtain ⟨n, -, -⟩ := n
  show ∃ (negative : Bool) (digits : List Char), (toString n).toList = _ ∧ IsDigits digits ∧ _ = n
  cases n with
  | ofNat n =>
      refine ⟨false, Nat.toDigits 10 n, ?_, isDigits_toDigits n, by simp⟩
      show n.repr.toList = _
      simp [signText]
  | negSucc n =>
      refine ⟨true, Nat.toDigits 10 (n + 1), ?_, isDigits_toDigits _, ?_⟩
      · show ("-" ++ (n + 1).repr).toList = _
        simp [signText]
      · simp
        omega

end DataFilter
