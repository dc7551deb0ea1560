import Brainfuck.Machine.State
import Brainfuck.Program.Block

/-!
# Evaluation of blocks

What a block does can be said without a machine. The symbols of a block are executed one after the
other, and a loop means: while the cell under the head is not `0`, evaluate the body.

## Counting steps

An evaluation also says how many steps it takes. A symbol takes one. Coming to a loop takes one, on
its `[`, and a loop that is skipped takes no more. Each time the body has been evaluated one more
step is taken, on the `]`.

The rule for one turn of a loop evaluates the loop anew after the body. That evaluation counts a
step on `[` which is not made, but it stands for the one by which the loop was entered.

## Indexes

An evaluation knows the index of the first symbol of its block, because the errors of devices name
the index of the symbol that used them. It ends early with such an error.
-/

namespace Brainfuck

variable {ω ι : Type} [OutputDevice ω] [InputDevice ι]

/-- `Evaluates i b s n r t`: the block `b`, whose first symbol has index `i`, takes the state `s` to
the state `t` in `n` steps, with the result `r`. -/
inductive Evaluates : Nat → Block → State ω ι → Nat → Except RuntimeError Unit → State ω ι → Prop
  /-- There is nothing left to evaluate. -/
  | nil {i : Nat} {s : State ω ι} : Evaluates i .nil s 0 (.ok ()) s
  /-- A symbol does its work, and the rest is evaluated. -/
  | symbol {i n : Nat} {c : Char} {plain : Plain c} {rest : Block} {s u t : State ω ι}
      {r : Except RuntimeError Unit}
      (work : s.exec i (Command.ofChar? c) = (.ok (), u)) (more : Evaluates (i + 1) rest u n r t) :
      Evaluates i (.symbol c plain rest) s (n + 1) r t
  /-- A symbol fails. -/
  | fail {i : Nat} {c : Char} {plain : Plain c} {rest : Block} {s t : State ω ι} {e : RuntimeError}
      (work : s.exec i (Command.ofChar? c) = (.error e, t)) :
      Evaluates i (.symbol c plain rest) s 1 (.error e) t
  /-- A loop is left, or never entered, and the rest is evaluated. -/
  | leave {i n : Nat} {body rest : Block} {s t : State ω ι} {r : Except RuntimeError Unit}
      (zero : s.cell = 0) (more : Evaluates (i + body.size + 2) rest s n r t) :
      Evaluates i (.loop body rest) s (n + 1) r t
  /-- The body of a loop is evaluated, and then the loop again. -/
  | turn {i a b : Nat} {body rest : Block} {s u t : State ω ι} {r : Except RuntimeError Unit}
      (nonzero : s.cell ≠ 0) (once : Evaluates (i + 1) body s a (.ok ()) u)
      (more : Evaluates i (.loop body rest) u b r t) :
      Evaluates i (.loop body rest) s (a + 1 + b) r t
  /-- The body of a loop fails. -/
  | failTurn {i a : Nat} {body rest : Block} {s t : State ω ι} {e : RuntimeError}
      (nonzero : s.cell ≠ 0) (once : Evaluates (i + 1) body s a (.error e) t) :
      Evaluates i (.loop body rest) s (a + 1) (.error e) t

namespace Evaluates

/-- An evaluation has one number of steps, one result and one state at its end. -/
theorem unique {i n m : Nat} {b : Block} {s t u : State ω ι} {r q : Except RuntimeError Unit}
    (h : Evaluates i b s n r t) (k : Evaluates i b s m q u) : n = m ∧ r = q ∧ t = u := by
  induction h generalizing m q u with
  | nil =>
    cases k
    exact ⟨rfl, rfl, rfl⟩
  | symbol work more ih =>
    cases k with
    | symbol work' more' =>
      rw [work] at work'
      obtain ⟨-, rfl⟩ := Prod.mk.inj work'
      obtain ⟨rfl, rfl, rfl⟩ := ih more'
      exact ⟨rfl, rfl, rfl⟩
    | fail work' =>
      rw [work] at work'
      exact absurd (Prod.mk.inj work').1 (by simp)
  | fail work =>
    cases k with
    | symbol work' more' =>
      rw [work] at work'
      exact absurd (Prod.mk.inj work').1 (by simp)
    | fail work' =>
      rw [work] at work'
      obtain ⟨he, rfl⟩ := Prod.mk.inj work'
      exact ⟨rfl, he, rfl⟩
  | leave zero more ih =>
    cases k with
    | leave zero' more' =>
      obtain ⟨rfl, rfl, rfl⟩ := ih more'
      exact ⟨rfl, rfl, rfl⟩
    | turn nonzero _ _ => exact absurd zero nonzero
    | failTurn nonzero _ => exact absurd zero nonzero
  | turn nonzero once more ihOnce ihMore =>
    cases k with
    | leave zero _ => exact absurd zero nonzero
    | turn _ once' more' =>
      obtain ⟨rfl, -, rfl⟩ := ihOnce once'
      obtain ⟨rfl, rfl, rfl⟩ := ihMore more'
      exact ⟨rfl, rfl, rfl⟩
    | failTurn _ once' => exact absurd (ihOnce once').2.1 (by simp)
  | failTurn nonzero once ih =>
    cases k with
    | leave zero _ => exact absurd zero nonzero
    | turn _ once' _ => exact absurd (ih once').2.1 (by simp)
    | failTurn _ once' =>
      obtain ⟨rfl, he, rfl⟩ := ih once'
      exact ⟨rfl, he, rfl⟩

end Evaluates

end Brainfuck
