/-!
# Remainders by long division in words

A divisor of three 32-bit words divides a longer number word by word, from the leading word down.
Both are first shifted to the left until the divisor fills its three words, which leaves the
quotient as it is. Each step puts the next word of the dividend behind what is left so far, and
divides the four words by the three.

The word that a step adds to the quotient is estimated from the leading words. Where the dividend
of the step begins with the same word as the divisor, the estimate is one bit longer than a word;
that bit is lost, and the leading word of the dividend stays out of the division
(`stepRemainder`). In every other step the remainder is exact.
-/

namespace DataFilter

/-- The first number that does not fit a word of 32 bits. -/
def wordBase : Nat := 4294967296

/-- What is left of four words after division by three of which the leading one is not zero. -/
def stepRemainder (divisor dividend : Nat) : Nat :=
  if dividend / Nat.pow wordBase 3 = divisor / Nat.pow wordBase 2 then
    dividend % Nat.pow wordBase 3 % divisor
  else dividend % divisor

/-- The last `count` words of a number, the leading one first. -/
def wordsOf (n count : Nat) : List Nat :=
  (List.range count).reverse.map fun position => n / Nat.pow wordBase position % wordBase

/-- What is left after the words of a dividend, where `left` was left of those before. -/
def wordsRemainder (divisor left : Nat) (words : List Nat) : Nat :=
  words.foldl (fun left word => stepRemainder divisor (wordBase * left + word)) left

/-- What is left of a dividend after long division by a divisor of three words. -/
def longRemainder (dividend divisor : Nat) : Nat :=
  let shift := Nat.pow 2 (95 - divisor.log2)
  let shifted := dividend * shift
  wordsRemainder (divisor * shift) 0 (wordsOf shifted (shifted.log2 / 32 + 1)) / shift

end DataFilter
