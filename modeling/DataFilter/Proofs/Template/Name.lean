import DataFilter.Template.Shape
import Mathlib.Tactic.Tauto

/-!
# Names

Which characters a name begins with and consists of, and how names are made of names.
-/

namespace DataFilter

/-- The letters are those of ASCII. -/
theorem isAlpha_iff_toNat {c : Char} :
    c.isAlpha = true ↔ 65 ≤ c.toNat ∧ c.toNat ≤ 90 ∨ 97 ≤ c.toNat ∧ c.toNat ≤ 122 := by
  have upper : c.isUpper = true ↔ 65 ≤ c.toNat ∧ c.toNat ≤ 90 := decide_eq_true_iff
  have lower : c.isLower = true ↔ 97 ≤ c.toNat ∧ c.toNat ≤ 122 :=
    (Bool.and_eq_true _ _).to_iff.trans (and_congr decide_eq_true_iff decide_eq_true_iff)
  show (c.isUpper || c.isLower) = true ↔ _
  rw [Bool.or_eq_true, upper, lower]

theorem isAlphanum_iff_toNat {c : Char} :
    c.isAlphanum = true ↔
      (65 ≤ c.toNat ∧ c.toNat ≤ 90 ∨ 97 ≤ c.toNat ∧ c.toNat ≤ 122) ∨
        48 ≤ c.toNat ∧ c.toNat ≤ 57 := by
  show (c.isAlpha || c.isDigit) = true ↔ _
  rw [Bool.or_eq_true, isAlpha_iff_toNat, Char.isDigit_iff_toNat]
  rfl

theorem isAlphanum_or_of_isNameStart {c : Char} (h : isNameStart c = true) :
    c.isAlphanum = true ∨ c = '_' := by
  simp only [isNameStart, Char.isAlphanum, Bool.or_eq_true, decide_eq_true_eq] at h ⊢
  tauto

theorem isDigit_of_isNameStart {c : Char} (h : isNameStart c = true) : c.isDigit = false := by
  simp only [isNameStart, Bool.or_eq_true, decide_eq_true_eq] at h
  rcases h with halpha | rfl
  · have letter := isAlpha_iff_toNat.mp halpha
    refine Bool.eq_false_iff.mpr fun hdigit => ?_
    have digit : 48 ≤ c.toNat ∧ c.toNat ≤ 57 := Char.isDigit_iff_toNat.mp hdigit
    omega
  · decide

theorem isNameChar_of_isName {name : List Char} (h : isName name = true) :
    ∀ c ∈ name, isNameChar c = true := by
  cases name with
  | nil => cases h
  | cons c rest =>
      obtain ⟨hstart, hrest⟩ := (Bool.and_eq_true _ _).mp h
      refine List.forall_mem_cons.mpr ⟨?_, List.all_eq_true.mp hrest⟩
      simp only [isNameChar, Bool.or_eq_true, decide_eq_true_eq]
      exact isAlphanum_or_of_isNameStart hstart

theorem isName_append {name rest : List Char} (h : isName name = true)
    (hrest : ∀ c ∈ rest, isNameChar c = true) : isName (name ++ rest) = true := by
  cases name with
  | nil => cases h
  | cons c name =>
      obtain ⟨hstart, hname⟩ := (Bool.and_eq_true _ _).mp h
      rw [List.cons_append, isName, hstart, List.all_append, hname, Bool.true_and, Bool.true_and]
      exact List.all_eq_true.mpr hrest

/-- What a name begins with is a name, unless it is empty. -/
theorem isName_take {name : List Char} (h : isName name = true) {n : Nat} (hn : 0 < n) :
    isName (name.take n) = true := by
  cases name with
  | nil => cases h
  | cons c name =>
      obtain ⟨hstart, hname⟩ := (Bool.and_eq_true _ _).mp h
      obtain ⟨m, rfl⟩ : ∃ m, n = m + 1 := ⟨n - 1, by omega⟩
      rw [List.take_succ_cons, isName, hstart, Bool.true_and]
      exact List.all_eq_true.mpr fun d hd =>
        List.all_eq_true.mp hname d (List.mem_of_mem_take hd)

end DataFilter
