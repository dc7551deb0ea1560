/-!
# Decimal numerals of words

A numeral is an optional plus sign and at least one digit `0` to `9`; leading zeros do no harm. It
is read from left to right into a word of 64 bits, and the first thing that goes wrong on the way
is the error: a character that is no digit, or a value that has become too large.
-/

namespace Brainfuck.Text

/-- Why a text is not a numeral. -/
inductive NumeralError where
  /-- There is nothing to read. -/
  | empty
  /-- A character is not a digit, or there is only a sign. -/
  | invalidDigit
  /-- The value does not fit into 64 bits. -/
  | tooLarge
deriving DecidableEq, Repr

/-- What is said about a text that is not a numeral. -/
def NumeralError.message : NumeralError → String
  | empty => "cannot parse integer from empty string"
  | invalidDigit => "invalid digit found in string"
  | tooLarge => "number too large to fit in target type"

namespace Numeral

/-- The value of a digit. -/
def digitValue (c : Char) : Nat := c.toNat - '0'.toNat

/-- Read digits behind those that have given the value `n`. -/
def digitsFrom (n : Nat) : List Char → Except NumeralError Nat
  | [] => .ok n
  | c :: cs =>
    if c.isDigit then
      if n * 10 + digitValue c < UInt64.size then digitsFrom (n * 10 + digitValue c) cs
      else .error .tooLarge
    else .error .invalidDigit

/-- The digits of a numeral, behind its sign. -/
def unsigned : List Char → List Char
  | '+' :: cs => cs
  | cs => cs

/-- Read a numeral. -/
def parse (cs : List Char) : Except NumeralError UInt64 :=
  if cs = [] then .error .empty
  else if unsigned cs = [] then .error .invalidDigit
  else (digitsFrom 0 (unsigned cs)).map (·.toUInt64)

@[simp] theorem digitsFrom_nil (n : Nat) : digitsFrom n [] = .ok n := rfl

theorem digitsFrom_cons (n : Nat) (c : Char) (cs : List Char) :
    digitsFrom n (c :: cs) =
      if c.isDigit then
        if n * 10 + digitValue c < UInt64.size then digitsFrom (n * 10 + digitValue c) cs
        else .error .tooLarge
      else .error .invalidDigit := rfl

/-- What is read fits into 64 bits. -/
theorem lt_size_of_digitsFrom {n k : Nat} {cs : List Char} (hn : n < UInt64.size)
    (h : digitsFrom n cs = .ok k) : k < UInt64.size := by
  induction cs generalizing n with
  | nil =>
    obtain rfl := Except.ok.inj h
    exact hn
  | cons c cs ih =>
    rw [digitsFrom_cons] at h
    split at h
    · split at h
      · next hlt => exact ih hlt h
      · simp at h
    · simp at h

end Numeral

end Brainfuck.Text
