import Brainfuck.Text.Blank
import Brainfuck.Text.Pattern.Basic

/-!
# Blanks and escapes in patterns

In a *verbose* pattern blanks stand for nothing, and neither do comments, from a number sign up to
the end of the line. They are passed over between the parts of a pattern, inside of a set, and
between the digits of a character. An escape is a backslash with what belongs to it.

## What there is not

References back to a group are not known, and neither are properties of characters.
-/

namespace Brainfuck.Text.Pattern

/-! ## Blanks and comments -/

/-- Pass over blanks and comments; `comment` says whether the text starts inside of a comment. -/
def skipFrom (comment : Bool) : List Char → List Char
  | [] => []
  | c :: cs =>
    if comment then skipFrom (c ≠ '\n') cs
    else if isBlank c then skipFrom false cs
    else if c = '#' then skipFrom true cs
    else c :: cs

/-- Pass over blanks and comments in a verbose pattern. -/
def skip (verbose : Bool) (cs : List Char) : List Char := if verbose then skipFrom false cs else cs

/-- The first character that is not blank and no number sign that begins a comment. -/
def firstVisible (comment : Bool) : List Char → Option Char
  | [] => none
  | c :: cs =>
    if isBlank c then firstVisible comment cs
    else if !comment && c = '#' then firstVisible true cs
    else some c

/-- The character that seems to come next, where blanks stand for nothing in a verbose pattern. Of a
comment this sees the first character. -/
def glance (verbose : Bool) (cs : List Char) : Option Char :=
  if verbose then (firstVisible false cs).or cs.head? else cs.head?

/-! ## Escapes -/

/-- What an escape stands for. -/
inductive Escape where
  /-- One character. -/
  | literal (l : Literal)
  /-- A digit, a blank or a part of a word, or anything else. -/
  | shorthand (negated : Bool)
  /-- The beginning or the end of the text. -/
  | anchor
  /-- A boundary of a word, or a place that is none. -/
  | boundary
deriving DecidableEq, Repr

/-- The value of a hexadecimal digit. -/
def hexValue? (c : Char) : Option Nat :=
  if c.isDigit then some (c.toNat - '0'.toNat)
  else if 'a' ≤ c.toLower ∧ c.toLower ≤ 'f' then some (c.toLower.toNat - 'a'.toNat + 10)
  else none

/-- Read `digits` hexadecimal digits behind those that have given the value `n`. -/
def readHex (verbose : Bool) : (digits n : Nat) → List Char → Option (Nat × List Char)
  | 0, n, cs => some (n, cs)
  | _ + 1, _, [] => none
  | digits + 1, n, c :: cs =>
    match hexValue? c with
    | none => none
    | some value => readHex verbose digits (n * 16 + value) (skip verbose cs)

/-- Read a character in `digits` hexadecimal digits. -/
def readCodePoint (verbose : Bool) (digits : Nat) (cs : List Char) :
    Option (Escape × List Char) :=
  match readHex verbose digits 0 (skip verbose cs) with
  | none => none
  | some (n, rest) =>
    if n.isValidChar then some (.literal ⟨.ofNat n, digits = 2⟩, rest) else none

/-- The letters for single characters. -/
def namedCharacters : List (Char × Char) :=
  [('a', '\x07'), ('f', '\x0C'), ('t', '\t'), ('n', '\n'), ('r', '\r'), ('v', '\x0B')]

/-- Read an escape behind its backslash. A character of ASCII that is no letter and no digit stands
for itself. -/
def readEscape (verbose : Bool) : List Char → Option (Escape × List Char)
  | [] => none
  | c :: cs =>
    if c = 'x' then readCodePoint verbose 2 cs
    else if c = 'u' then readCodePoint verbose 4 cs
    else if c = 'U' then readCodePoint verbose 8 cs
    else if ['d', 's', 'w'].contains c then some (.shorthand false, cs)
    else if ['D', 'S', 'W'].contains c then some (.shorthand true, cs)
    else if ['A', 'z'].contains c then some (.anchor, cs)
    else if ['b', 'B', '<', '>'].contains c then some (.boundary, cs)
    else
      match namedCharacters.lookup c with
      | some d => some (.literal ⟨d, false⟩, cs)
      | none =>
        if c.toNat < 0x80 ∧ ¬c.isAlphanum then some (.literal ⟨c, false⟩, cs) else none

end Brainfuck.Text.Pattern
