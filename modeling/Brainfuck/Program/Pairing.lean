import Brainfuck.Program.Basic

/-!
# Pairing brackets in one pass

The brackets of a program can be paired in a single pass from left to right. Every `[` is put on a
stack, and every `]` is paired with the `[` on top, which is taken off. A `]` that finds the stack
empty has no partner, and neither has a `[` that is still on the stack in the end.

This is how one would pair the brackets of all loops at once. `Brainfuck.Program.Brackets` looks for
one partner at a time, in whichever direction it lies, and never builds a table.
-/

namespace Brainfuck

/-- What a pass over the symbols of a program has found so far. -/
structure Pairing where
  /-- The pairs of a `[` and its `]`, by their indexes, the latest first. -/
  pairs : List (Nat × Nat) := []
  /-- The indexes of the `[` that have no partner yet, the latest first. -/
  stack : List Nat := []
deriving DecidableEq, Repr

namespace Pairing

/-- Pass over the symbol `c` at index `i`. -/
def visit (q : Pairing) (i : Nat) (c : Char) : Pairing :=
  match Command.ofChar? c with
  | some .loopStart => { q with stack := i :: q.stack }
  | some .loopEnd =>
    match q.stack with
    | [] => q
    | o :: stack => ⟨(o, i) :: q.pairs, stack⟩
  | _ => q

/-- Pass over symbols, the first of which has index `i`. -/
def visitAll (q : Pairing) (i : Nat) : List Char → Pairing
  | [] => q
  | c :: cs => (q.visit i c).visitAll (i + 1) cs

@[simp] theorem visitAll_nil (q : Pairing) (i : Nat) : q.visitAll i [] = q := rfl

@[simp] theorem visitAll_cons (q : Pairing) (i : Nat) (c : Char) (cs : List Char) :
    q.visitAll i (c :: cs) = (q.visit i c).visitAll (i + 1) cs := rfl

end Pairing

namespace Program

/-- The pairing of the brackets of a program. -/
def pairing (p : Program) : Pairing := Pairing.visitAll {} 0 p.toList

/-- The `[` at index `i` and the `]` at index `j` are partners. -/
def Paired (p : Program) (i j : Nat) : Prop := (i, j) ∈ p.pairing.pairs

instance (p : Program) (i j : Nat) : Decidable (p.Paired i j) :=
  inferInstanceAs (Decidable ((i, j) ∈ p.pairing.pairs))

end Program

end Brainfuck
