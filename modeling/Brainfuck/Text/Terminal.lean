/-!
# Control sequences of terminals

Colours and other instructions to a terminal are written into a text as *control sequences*, which
start with the escape character. For a reader that is not a terminal they are taken out again, and
with them every control character but the white space of ASCII.

## Modes

Where a reader is in a control sequence is its *mode*, and bytes take it from mode to mode. Outside
of sequences, in the mode `ground`, characters are kept. White space is kept also inside a sequence,
where the sequence lets it through.

## Runs

A character that is kept starts a run, and a run goes on up to the first character that is not kept
outside of sequences. So a sequence that has been interrupted by white space does not take anything
from the run behind it. It is taken up again, in the mode in which it was left, where the run ends;
only a character beyond ASCII ends it for good.
-/

namespace Brainfuck.Text.Terminal

/-- Where a reader is in a control sequence. -/
inductive Mode where
  /-- Outside of sequences. -/
  | ground
  /-- Behind the escape character. -/
  | escape
  /-- Behind an intermediate character of a short sequence. -/
  | intermediate
  /-- In a control sequence proper, which starts with a bracket. -/
  | control
  /-- At the beginning of a device control string. -/
  | deviceEntry
  /-- In the parameters of a device control string. -/
  | deviceParameter
  /-- Behind an intermediate character of a device control string. -/
  | deviceIntermediate
  /-- In an operating system command, which ends with the bell character. -/
  | command
  /-- In any other string, which ends with a string terminator. -/
  | string
deriving DecidableEq, Repr

namespace Mode

/-- The mode behind a byte that follows the escape character. -/
def afterEscape (b : Nat) : Mode :=
  if b < 0x20 then escape
  else if b < 0x30 then intermediate
  else if b = 0x50 then deviceEntry
  else if b = 0x58 ∨ b = 0x5E ∨ b = 0x5F then string
  else if b = 0x5B then control
  else if b = 0x5D then command
  else if b < 0x7F then ground
  else escape

/-- The mode behind a byte. The escape character and the two characters that cancel a sequence work
in every mode. -/
def next (m : Mode) (b : Nat) : Mode :=
  if b = 0x1B then escape
  else if b = 0x18 ∨ b = 0x1A then ground
  else
    match m with
    | ground => ground
    | escape => afterEscape b
    | intermediate => if 0x30 ≤ b ∧ b < 0x7F then ground else intermediate
    | control => if 0x40 ≤ b ∧ b < 0x7F then ground else control
    | deviceEntry =>
      if 0x20 ≤ b ∧ b < 0x30 then deviceIntermediate
      else if 0x30 ≤ b ∧ b < 0x40 then deviceParameter
      else if 0x40 ≤ b ∧ b < 0x7F then string
      else deviceEntry
    | deviceParameter =>
      if 0x20 ≤ b ∧ b < 0x30 then deviceIntermediate
      else if 0x30 ≤ b ∧ b < 0x3C then deviceParameter
      else if 0x3C ≤ b ∧ b < 0x7F then string
      else deviceParameter
    | deviceIntermediate => if 0x30 ≤ b ∧ b < 0x7F then string else deviceIntermediate
    | command => if b = 0x07 then ground else command
    | string => if b = 0x9C then ground else string

/-- The mode behind all bytes of a character. -/
def after (m : Mode) (c : Char) : Mode :=
  (String.utf8EncodeChar c).foldl (fun m b ↦ m.next b.toNat) m

/-- Whether white space is kept. -/
def keepsSpace : Mode → Bool
  | ground | escape | intermediate | control => true
  | _ => false

/-- Whether a character is kept. -/
def keeps (m : Mode) (c : Char) : Bool :=
  if c = '\t' ∨ c = '\n' ∨ c = '\x0C' ∨ c = '\r' then m.keepsSpace
  else m = ground && ' ' ≤ c && c ≠ '\x7F'

end Mode

/-- What is kept of a text that is read in a mode, inside a run or not. -/
def keptFrom : (running : Bool) → Mode → List Char → List Char
  | _, _, [] => []
  | running, m, c :: cs =>
    if (if running then .ground else m : Mode).keeps c then
      c :: keptFrom true (if c.toNat < 0x80 then m else .ground) cs
    else keptFrom false (m.after c) cs

/-- A text without its control sequences. -/
def plain (cs : List Char) : List Char := keptFrom false .ground cs

end Brainfuck.Text.Terminal
