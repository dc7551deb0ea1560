import Brainfuck.Program.Basic
import Brainfuck.Device.Fault

/-!
# Runtime errors

A step can fail for three reasons: the program has come to its end, a jump has no partner to go to,
or a device failed. Each error names the index of the symbol at which it arose.
-/

namespace Brainfuck

/-- Which bracket of a loop has no partner. -/
inductive Bracket where
  | opening
  | closing
deriving DecidableEq, Repr

/-- The character of a bracket. -/
def Bracket.toChar : Bracket → Char
  | opening => '['
  | closing => ']'

/-- Why a step failed. -/
inductive RuntimeError where
  /-- There was no symbol left to execute at index `ip`. -/
  | terminated (ip : Nat)
  /-- The bracket at index `ip` has no partner, and a jump to it was needed. -/
  | unmatched (ip : Nat) (side : Bracket)
  /-- The device that the symbol `op` at index `ip` uses failed. -/
  | device (ip : Nat) (op : Char) (fault : Fault)
deriving DecidableEq, Repr

namespace RuntimeError

/-- The index of the symbol at which the error arose. -/
def ip : RuntimeError → Nat
  | terminated ip => ip
  | unmatched ip _ => ip
  | device ip _ _ => ip

/-- The error in one sentence. -/
def message : RuntimeError → String
  | terminated ip => "Program has terminated and cannot be stepped (ip=" ++ ip.repr ++ ")"
  | unmatched ip side =>
    "Unmatched bracket '" ++ side.toChar.toString ++ "' at instruction " ++ ip.repr
  | device ip op f =>
    "I/O error at instruction " ++ ip.repr ++ " ('" ++ op.toString ++ "'): " ++ f.text

end RuntimeError

end Brainfuck
