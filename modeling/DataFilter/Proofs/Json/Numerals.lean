import DataFilter.Json.Read
import DataFilter.Proofs.Number.Nonzero

/-!
# The numbers of documents

JSON writes numbers of any size. A document that is read has whole numbers from `-2^63` to
`2^64 - 1`, and all its other numbers are finite: what a long significand is scaled down by is one or
more, so it stays below `2^64`, and what is scaled up is refused as soon as it is infinite.
-/

namespace DataFilter

/-- A number that a document can hold: a whole one of 64 bits, signed or unsigned, or a finite one. -/
def JsonNumber.IsReadable : JsonNumber → Prop
  | whole n => -9223372036854775808 ≤ n ∧ n < 18446744073709551616
  | binary x => x.isFinite = true

namespace Json

/-- Every number of the document, at any depth, has the property. -/
inductive NumbersAre (p : JsonNumber → Prop) : Json → Prop where
  | null : NumbersAre p .null
  | bool (b : Bool) : NumbersAre p (.bool b)
  | number {n : JsonNumber} (h : p n) : NumbersAre p (.number n)
  | string (s : String) : NumbersAre p (.string s)
  | array {items : List Json} (each : ∀ item ∈ items, NumbersAre p item) : NumbersAre p (.array items)
  | object {members : List (String × Json)} (each : ∀ member ∈ members, NumbersAre p member.2) :
      NumbersAre p (.object members)

open Binary64

/-! ## Powers of ten -/

theorem isFinite_of_atMost {x : Binary64} {bound : Nat} (h : x.AtMost bound) :
    x.isFinite = true := by
  obtain ⟨negative, units, magnitude, rfl, -⟩ := h
  rfl

/-- Powers of ten up to a finite one are finite, and one or more. -/
theorem powerOfTen_of_le {exponent limit : Nat} (h : exponent ≤ limit)
    (finite : (powerOfTen limit).isFinite = true) :
    ∃ negative units isMagnitude, powerOfTen exponent = .finite negative units isMagnitude ∧
      one ≤ units := by
  obtain ⟨sign, most, isMost, greatest⟩ : ∃ negative units isMagnitude,
      powerOfTen limit = .finite negative units isMagnitude := by
    generalize powerOfTen limit = x at finite
    cases x with
    | finite negative units isMagnitude => exact ⟨negative, units, isMagnitude, rfl⟩
    | nan => cases finite
    | infinite negative => cases finite
  have smaller : (Nat.pow 10 exponent : Int).natAbs ≤ (Nat.pow 10 limit : Int).natAbs := by
    simp only [Int.natAbs_natCast]
    exact Nat.pow_le_pow_right (by decide) h
  obtain ⟨negative, units, isMagnitude, turned, -⟩ := atMost_ofInt_of_le smaller greatest
  refine ⟨negative, units, isMagnitude, turned, one_le_of_ofInt ?_ turned⟩
  have pos : 0 < Nat.pow 10 exponent := Nat.pow_pos (by decide)
  omega

/-- The largest power of ten that a significand is scaled by is finite. -/
theorem isFinite_powerOfTen_greatest : (powerOfTen 308).isFinite = true := by decide +kernel

/-! ## Significands -/

/-- As many digits are collected as fit a word. -/
theorem collectDigits_lt {significand : Nat} (h : significand < wordLimit) (digits : List Char) :
    (collectDigits significand digits).1 < wordLimit := by
  induction digits generalizing significand with
  | nil => exact h
  | cons c rest ih =>
      unfold collectDigits
      dsimp only
      split
      · rename_i fits
        exact ih fits
      · exact h

theorem atMost_ofInt_significand {significand : Nat} (h : significand < wordLimit) :
    (ofInt significand).AtMost (2 ^ 64 * one) := by
  refine atMost_ofInt ?_ (by decide)
  unfold wordLimit at h
  omega

/-- A power of ten does not make a number larger that is divided by it. -/
theorem atMost_div_powerOfTen {x : Binary64} (h : x.AtMost (2 ^ 64 * one)) {exponent : Nat}
    (small : exponent ≤ 308) : (x.div (powerOfTen exponent)).AtMost (2 ^ 64 * one) := by
  obtain ⟨negative, units, isMagnitude, power, large⟩ := powerOfTen_of_le small isFinite_powerOfTen_greatest
  have pos := one_pos
  refine h.div power (by omega) (Nat.mul_le_mul_left _ large) (magnitudeGap_dvd_power 64) ?_
  exact power_lt_magnitudeLimit (by decide)

/-- Each step divides by a power of ten that is finite, the last one too. -/
theorem atMost_scaleDown {steps exponent : Nat} {x : Binary64} (h : x.AtMost (2 ^ 64 * one))
    (bound : exponent ≤ 308 * (steps + 1)) :
    (scaleDown steps x exponent).AtMost (2 ^ 64 * one) := by
  induction steps generalizing x exponent with
  | zero => exact atMost_div_powerOfTen h (by omega)
  | succ steps ih =>
      unfold scaleDown
      split
      · rename_i small
        exact atMost_div_powerOfTen h small
      · split
        · exact h
        · exact ih (atMost_div_powerOfTen h (Nat.le_refl _)) (by omega)

theorem isFinite_of_scale? {significand : Nat} {exponent : Int} {x : Binary64}
    (h : significand < wordLimit) (scaled : scale? significand exponent = some x) :
    x.isFinite = true := by
  have start := atMost_ofInt_significand h
  unfold scale? at scaled
  dsimp only at scaled
  split at scaled
  · rw [← Option.some.inj scaled]
    apply isFinite_of_atMost (atMost_scaleDown start _)
    omega
  · split at scaled
    · split at scaled
      · rename_i finite
        rw [← Option.some.inj scaled]
        exact finite
      · cases scaled
    · split at scaled
      · rw [← Option.some.inj scaled]
        exact isFinite_of_atMost start
      · cases scaled

/-! ## Numerals -/

theorem isFinite_neg (x : Binary64) : x.neg.isFinite = x.isFinite := by
  cases x <;> rfl

/-- A numeral whose number would be infinite has none. -/
theorem Numeral.isFinite_of_binary? {numeral : Numeral} {x : Binary64}
    (h : numeral.binary? = some x) : x.isFinite = true := by
  unfold Numeral.binary? at h
  dsimp only at h
  obtain ⟨magnitude, found, rfl⟩ := Option.map_eq_some_iff.mp h
  have collected : (collectDigits (collectDigits 0 numeral.whole).1 numeral.fraction).1 <
      wordLimit :=
    collectDigits_lt (collectDigits_lt (by decide) _) _
  have finite : magnitude.isFinite = true := by
    split at found
    · exact isFinite_of_scale? collected found
    · split at found
      · exact isFinite_of_scale? collected found
      · split at found
        · cases found
          rfl
        · cases found
  split
  · rw [isFinite_neg]
    exact finite
  · exact finite

theorem Numeral.isReadable_of_number? {numeral : Numeral} {n : JsonNumber}
    (h : numeral.number? = some n) : n.IsReadable := by
  unfold Numeral.number? at h
  dsimp only at h
  split at h
  · rename_i fits
    cases h
    simp only [Bool.and_eq_true, decide_eq_true_eq] at fits
    have small := fits.2
    unfold wordLimit at small
    exact ⟨by omega, by omega⟩
  · split at h
    · rename_i fits
      cases h
      simp only [Bool.and_eq_true, decide_eq_true_eq] at fits
      exact ⟨by omega, by omega⟩
    · obtain ⟨x, found, rfl⟩ := Option.map_eq_some_iff.mp h
      exact Numeral.isFinite_of_binary? found

/-! ## Documents -/

mutual

theorem numbersAre_of_read? {levels : Nat} {written : Written} {document : Json}
    (h : written.read? levels = some document) : document.NumbersAre JsonNumber.IsReadable := by
  cases written with
  | null =>
      cases h
      exact .null
  | bool b =>
      cases h
      exact .bool b
  | numeral n =>
      obtain ⟨m, found, rfl⟩ := Option.map_eq_some_iff.mp h
      exact .number (Numeral.isReadable_of_number? found)
  | string content =>
      obtain ⟨s, -, rfl⟩ := Option.map_eq_some_iff.mp h
      exact .string s
  | array items =>
      rw [Written.read?] at h
      split at h
      · cases h
      · obtain ⟨documents, found, rfl⟩ := Option.map_eq_some_iff.mp h
        exact .array (numbersAre_of_readItems? found)
  | object members =>
      rw [Written.read?] at h
      split at h
      · cases h
      · obtain ⟨entries, found, rfl⟩ := Option.map_eq_some_iff.mp h
        exact .object (Entries.forall_mem_ofList (numbersAre_of_readMembers? found))

theorem numbersAre_of_readItems? {levels : Nat} {items : List Written} {documents : List Json}
    (h : readItems? levels items = some documents) :
    ∀ document ∈ documents, document.NumbersAre JsonNumber.IsReadable := by
  cases items with
  | nil =>
      cases h
      exact nofun
  | cons item rest =>
      obtain ⟨first, found, h⟩ := Option.bind_eq_some_iff.mp h
      obtain ⟨others, behind, h⟩ := Option.bind_eq_some_iff.mp h
      cases h
      exact List.forall_mem_cons.mpr ⟨numbersAre_of_read? found, numbersAre_of_readItems? behind⟩

theorem numbersAre_of_readMembers? {levels : Nat} {members : List (List Char × Written)}
    {entries : List (String × Json)} (h : readMembers? levels members = some entries) :
    ∀ entry ∈ entries, entry.2.NumbersAre JsonNumber.IsReadable := by
  cases members with
  | nil =>
      cases h
      exact nofun
  | cons member rest =>
      obtain ⟨name, v⟩ := member
      obtain ⟨text, -, h⟩ := Option.bind_eq_some_iff.mp h
      obtain ⟨first, found, h⟩ := Option.bind_eq_some_iff.mp h
      obtain ⟨others, behind, h⟩ := Option.bind_eq_some_iff.mp h
      cases h
      exact List.forall_mem_cons.mpr ⟨numbersAre_of_read? found, numbersAre_of_readMembers? behind⟩

end

/-- The numbers of a document that is read from text are those that documents can hold. -/
theorem numbersAre_of_ofText? {text : String} {document : Json} (h : ofText? text = some document) :
    document.NumbersAre JsonNumber.IsReadable := by
  obtain ⟨written, -, read⟩ := Option.bind_eq_some_iff.mp h
  exact numbersAre_of_read? read

end Json

end DataFilter
