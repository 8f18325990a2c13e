import DataFilter.Json.Read
import DataFilter.Json.Render
import Mathlib.Data.List.Basic

/-!
# Strings in JSON text

A string is written character by character: as itself, as a backslash with a letter, or as a
backslash with the number of the character. What stands between the quotes is found as the content
of a string, whatever follows, and it has that string as its meaning.
-/

namespace DataFilter.Json

/-- The characters of a string as they are written between the quotes. -/
def content (text : List Char) : List Char := text.flatMap fun c => (stringChar c).toList

theorem content_cons (c : Char) (text : List Char) :
    content (c :: text) = (stringChar c).toList ++ content text := rfl

theorem toList_stringText (s : String) :
    (stringText s).toList = '"' :: (content s.toList ++ ['"']) := by
  simp [stringText, String.toList_join, content, List.flatMap_map]

/-- The letters that are written behind a backslash. -/
def spellingLetters : List Char := ['"', '\\', 'b', 'f', 'n', 'r', 't']

/-- How a character is written. -/
inductive IsSpelled (c : Char) : List Char → Prop where
  | itself (quote : c ≠ '"') (backslash : c ≠ '\\') (control : 0x20 ≤ c.toNat) : IsSpelled c [c]
  | letter {e : Char} (known : e ∈ spellingLetters) (meant : escapedChar e = c) :
      IsSpelled c ['\\', e]
  | unit (control : c.toNat < 0x20) :
      IsSpelled c
        ['\\', 'u', '0', '0', Nat.digitChar (c.toNat / 16), Nat.digitChar (c.toNat % 16)]

theorem isSpelled_stringChar (c : Char) : IsSpelled c (stringChar c).toList := by
  have letter (e : Char) (known : e ∈ spellingLetters) (same : c = escapedChar e) :
      IsSpelled c ['\\', e] := .letter known same.symm
  unfold stringChar
  split
  · exact letter '"' (by decide) ‹_›
  split
  · exact letter '\\' (by decide) ‹_›
  split
  · exact letter 'b' (by decide) ‹_›
  split
  · exact letter 'f' (by decide) ‹_›
  split
  · exact letter 'n' (by decide) ‹_›
  split
  · exact letter 'r' (by decide) ‹_›
  split
  · exact letter 't' (by decide) ‹_›
  split
  · rename_i control
    rw [String.toList_append, String.toList_ofList (l := [_, _])]
    exact .unit control
  · rename_i quote backslash _ _ _ _ _ control
    rw [Char.toString_eq_singleton, String.toList_singleton]
    exact .itself quote backslash (Nat.le_of_not_lt control)

/-- The two digits of a control character, with zeros in front, are its number. -/
theorem unit_digits : ∀ n < 0x20,
    Grammar.isHexDigit (Nat.digitChar (n / 16)) = true ∧
      Grammar.isHexDigit (Nat.digitChar (n % 16)) = true ∧
      ['0', '0', Nat.digitChar (n / 16), Nat.digitChar (n % 16)].foldl
        (fun n digit => 16 * n + hexDigitValue digit) 0 = n := by
  decide

/-! ## Found in a text -/

namespace Grammar

variable {c : Char} (rest : List Char)

theorem stringContent_plain (quote : c ≠ '"') (backslash : c ≠ '\\') (control : 0x20 ≤ c.toNat) :
    stringContent (c :: rest) =
      (stringContent rest).map fun (content, rest) => (c :: content, rest) := by
  have printable : ¬(c.toNat < 0x20 ∨ c = '\\') := by
    rintro (small | rfl)
    · exact absurd control (Nat.not_le_of_lt small)
    · exact backslash rfl
  rw [stringContent]
  · simp only [Bool.or_eq_true, decide_eq_true_eq, if_neg printable]
  all_goals
    intros
    contradiction

theorem stringContent_letter (known : c ∈ spellingLetters) :
    stringContent ('\\' :: c :: rest) =
      (stringContent rest).map fun (content, rest) => ('\\' :: c :: content, rest) := by
  simp only [spellingLetters, List.mem_cons, List.not_mem_nil, or_false] at known
  rcases known with rfl | rfl | rfl | rfl | rfl | rfl | rfl
  all_goals
    rw [stringContent]
    · exact if_pos (by decide)
    · intros
      contradiction

theorem stringContent_unit {a b c d : Char} (hex : [a, b, c, d].all isHexDigit = true) :
    stringContent ('\\' :: 'u' :: a :: b :: c :: d :: rest) =
      (stringContent rest).map fun (content, rest) =>
        ('\\' :: 'u' :: a :: b :: c :: d :: content, rest) := by
  rw [stringContent, if_pos hex]

/-- A character that is written is found as it is written. -/
theorem stringContent_isSpelled {written : List Char} (h : IsSpelled c written) :
    stringContent (written ++ rest) =
      (stringContent rest).map fun (content, rest) => (written ++ content, rest) := by
  cases h with
  | itself quote backslash control => exact stringContent_plain rest quote backslash control
  | letter known => exact stringContent_letter rest known
  | unit control =>
      obtain ⟨high, low, -⟩ := unit_digits c.toNat control
      have zero : isHexDigit '0' = true := by decide
      exact stringContent_unit rest (by simp only [List.all_cons, high, low, zero]; rfl)

/-- The content of a string is found up to its quote. -/
theorem stringContent_content (text : List Char) :
    stringContent (content text ++ '"' :: rest) = some (content text, rest) := by
  induction text with
  | nil => rfl
  | cons c text ih =>
      rw [content_cons, List.append_assoc, stringContent_isSpelled _ (isSpelled_stringChar c), ih]
      rfl

end Grammar

/-! ## With its meaning -/

theorem joinPieces?_unit {n : Nat} (basic : n < 0xD800) (rest : List StringPiece) :
    joinPieces? (.unit n :: rest) = (joinPieces? rest).map (Char.ofNat n :: ·) := by
  have high : ¬(0xD800 ≤ n ∧ n < 0xDC00) := by omega
  have low : ¬(0xDC00 ≤ n ∧ n < 0xE000) := by omega
  have alone : ¬(0xD800 ≤ n ∧ n < 0xE000) := by omega
  match rest with
  | .unit second :: rest => rw [joinPieces?, if_neg high, if_neg low]
  | .char c :: rest => simp only [joinPieces?, if_neg alone]
  | [] => simp only [joinPieces?, if_neg alone]

/-- A character that is written means itself. -/
theorem joinPieces?_isSpelled {c : Char} {written : List Char} (h : IsSpelled c written)
    (rest : List Char) :
    joinPieces? (stringPieces (written ++ rest)) =
      (joinPieces? (stringPieces rest)).map (c :: ·) := by
  cases h with
  | itself quote backslash control =>
      have piece : stringPieces (c :: rest) = .char c :: stringPieces rest := by
        rw [stringPieces]
        all_goals
          intros
          contradiction
      rw [List.cons_append, List.nil_append, piece, joinPieces?]
  | @letter e known meant =>
      have piece : stringPieces ('\\' :: e :: rest) =
          .char (escapedChar e) :: stringPieces rest := by
        rw [stringPieces]
        rintro _ _ _ _ _ rfl
        exact absurd known (by decide)
      rw [List.cons_append, List.cons_append, List.nil_append, piece, joinPieces?, meant]
  | unit control =>
      obtain ⟨-, -, value⟩ := unit_digits c.toNat control
      simp only [List.cons_append, List.nil_append, stringPieces, value]
      rw [joinPieces?_unit (Nat.lt_of_lt_of_le control (by decide)), Char.ofNat_toNat]

/-- What is written means the string. -/
theorem stringOfContent?_content (s : String) : stringOfContent? (content s.toList) = some s := by
  have pieces (text : List Char) : joinPieces? (stringPieces (content text)) = some text := by
    induction text with
    | nil => rfl
    | cons c text ih =>
        rw [content_cons, joinPieces?_isSpelled (isSpelled_stringChar c), ih]
        rfl
  rw [stringOfContent?, pieces, Option.map_some, String.ofList_toList]

end DataFilter.Json
