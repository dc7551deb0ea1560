import Brainfuck.Text.Blank

/-!
# Decimal fractions

Which texts are numbers with a fraction and an exponent, and which words stand for the values that
are no numbers.
-/

namespace Brainfuck.Text.Decimal

/-- Take a sign off the front, if there is one. -/
def unsigned : List Char → List Char
  | [] => []
  | c :: cs => if c = '+' ∨ c = '-' then cs else c :: cs

/-- Whether a text is the exponent of a fraction, or nothing. -/
def isExponent : List Char → Bool
  | [] => true
  | c :: cs => (c = 'e' || c = 'E') && unsigned cs ≠ [] && (unsigned cs).all Char.isDigit

/-- Whether a text is a fraction without a sign. There has to be a digit in front of the point or
behind it. -/
def isFraction (cs : List Char) : Bool :=
  match cs.dropWhile Char.isDigit with
  | '.' :: rest =>
    (cs.takeWhile Char.isDigit ≠ [] || rest.takeWhile Char.isDigit ≠ [])
      && isExponent (rest.dropWhile Char.isDigit)
  | rest => cs.takeWhile Char.isDigit ≠ [] && isExponent rest

/-- The words for the values that are no numbers. -/
def words : List (List Char) := ["inf".toList, "infinity".toList, "nan".toList]

/-- Whether a text is a fraction or one of the words, perhaps with a sign. -/
def isNumber (cs : List Char) : Bool :=
  isFraction (unsigned cs) || words.contains (lower (unsigned cs))

end Brainfuck.Text.Decimal
