import DataFilter.Proofs.Number.Digits
import DataFilter.Proofs.Sql.Compiling
import DataFilter.Proofs.Sql.Lexing

/-!
# The names of rows

The rows of a collection test are named after the collection and numbered. The singular of a name is
a name, and a numbered name is a name that is no keyword, whatever it is made of.
-/

namespace DataFilter.Sql

theorem isAlpha_toLower {c : Char} (h : c.isAlpha = true) : c.toLower.isAlpha = true := by
  unfold Char.toLower
  split
  · rename_i upper
    have capital : 65 ≤ c.toNat ∧ c.toNat ≤ 90 := upper
    have shifted : (c.val + 32).toNat = c.toNat + 32 := by
      rw [UInt32.toNat_add]
      exact Nat.mod_eq_of_lt (by show c.toNat + 32 < 4294967296; omega)
    refine isAlpha_iff_toNat.mpr (.inr ?_)
    show 97 ≤ (c.val + 32).toNat ∧ (c.val + 32).toNat ≤ 122
    omega
  · exact h

theorem isNameStart_toLower {c : Char} (h : isNameStart c = true) :
    isNameStart c.toLower = true := by
  simp only [isNameStart, Bool.or_eq_true, decide_eq_true_eq] at h ⊢
  rcases h with alpha | rfl
  · exact .inl (isAlpha_toLower alpha)
  · exact .inr rfl

theorem isNameChar_toLower {c : Char} (h : isNameChar c = true) : isNameChar c.toLower = true := by
  by_cases alpha : c.isAlpha = true
  · simp [isNameChar, Char.isAlphanum, isAlpha_toLower alpha]
  · have lower : c.toLower = c := by
      unfold Char.toLower
      rw [dif_neg]
      intro upper
      have capital : c.isUpper = true := decide_eq_true upper
      exact alpha ((Bool.or_eq_true _ _).mpr (.inl capital))
    rw [lower]
    exact h

theorem isName_map_toLower {name : List Char} (h : isName name = true) :
    isName (name.map Char.toLower) = true := by
  cases name with
  | nil => cases h
  | cons c name =>
      obtain ⟨start, rest⟩ := (Bool.and_eq_true _ _).mp h
      rw [List.map_cons, isName, isNameStart_toLower start, Bool.true_and, List.all_map]
      exact List.all_eq_true.mpr fun d hd => isNameChar_toLower (List.all_eq_true.mp rest d hd)

/-- The singular of a name takes letters off the end of it, but never all of them. -/
theorem isName_singular {word : List Char} (h : isName word = true) :
    isName (singular word) = true := by
  have shortened (n : Nat) (hn : n < word.length) :
      isName ((word.reverse.drop n).reverse) = true := by
    rw [List.drop_reverse, List.reverse_reverse]
    exact isName_take h (Nat.sub_pos_of_lt hn)
  unfold singular
  dsimp only
  split
  · rename_i ending
    exact isName_append (shortened 3 ending.2) (List.forall_mem_singleton.mpr rfl)
  · split
    · rename_i ending
      obtain ⟨suffix, hmem, hending⟩ := List.any_eq_true.mp ending
      have long : ∀ suffix ∈ syllableEndings, 2 < suffix.length := by decide
      rw [Bool.and_eq_true, decide_eq_true_eq] at hending
      exact shortened 2 (Nat.lt_trans (long suffix hmem) hending.2)
    · split
      · rename_i ending
        exact shortened 1 ending.1
      · exact h

theorem isIdentifier_singularize {name : String} (h : isIdentifier name = true) :
    isIdentifier (singularize name) = true := by
  rw [isIdentifier, singularize, String.toList_ofList]
  exact isName_singular (isName_map_toLower h)

theorem toList_aliasOf (stem : String) (number : Nat) :
    (aliasOf stem number).toList = stem.toList ++ '_' :: Nat.toDigits 10 number := by
  rw [aliasOf, String.toList_append, String.toList_append, toList_toString, List.append_assoc]
  rfl

/-- A numbered name is no keyword: no keyword has an underscore. -/
theorem isPlain_aliasOf {stem : String} (h : isIdentifier stem = true) (number : Nat) :
    IsPlain (aliasOf stem number) := by
  rw [IsPlain, toList_aliasOf]
  constructor
  · refine isName_append h fun c hc => ?_
    rcases List.mem_cons.mp hc with rfl | digit
    · decide
    · simp [isNameChar, Char.isAlphanum, (isDigits_toDigits number).2 c digit]
  · refine List.find?_eq_none.mpr fun k _ => ?_
    have plain : '_' ∉ k.spelling.toList := by cases k <;> decide
    intro same
    rw [decide_eq_true_eq] at same
    refine plain (same ▸ ?_)
    simp

end DataFilter.Sql
