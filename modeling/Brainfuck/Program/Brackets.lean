import Brainfuck.Program.Basic

/-!
# Partners of brackets

The partner of a bracket is found by a scan that starts next to it and moves away from it: forward
from a `[`, backward from a `]`. The scan counts how many loops it has entered and not left, its
*depth*, and ends at the first bracket of the other side that it meets at depth `0`.

## Unmatched brackets

A scan that runs off the end of the text finds no partner. Nothing is asked of the rest of the
program: a bracket can have its partner in a program whose other brackets do not match.
-/

namespace Brainfuck.Program

variable (p : Program)

/-- Scan the last `left` symbols forward, `depth` loops deep, for the `]` that ends the loop the
scan started in. -/
def closingIn : (left depth : Nat) → Option Nat
  | 0, _ => none
  | left + 1, depth =>
    match p.commandAt (p.size - (left + 1)) with
    | some .loopStart => closingIn left (depth + 1)
    | some .loopEnd =>
      if depth = 0 then some (p.size - (left + 1)) else closingIn left (depth - 1)
    | _ => closingIn left depth

/-- Scan the first `bound` symbols backward, `depth` loops deep, for the `[` that starts the loop
the scan started in. -/
def openingIn : (bound depth : Nat) → Option Nat
  | 0, _ => none
  | i + 1, depth =>
    match p.commandAt i with
    | some .loopEnd => openingIn i (depth + 1)
    | some .loopStart => if depth = 0 then some i else openingIn i (depth - 1)
    | _ => openingIn i depth

/-- The index of the `]` that is the partner of the `[` at index `i`. -/
def closing? (i : Nat) : Option Nat := p.closingIn (p.size - (i + 1)) 0

/-- The index of the `[` that is the partner of the `]` at index `i`. -/
def opening? (i : Nat) : Option Nat := p.openingIn i 0

end Brainfuck.Program
