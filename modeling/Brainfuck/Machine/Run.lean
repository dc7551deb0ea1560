import Brainfuck.Machine.Basic

/-!
# Running a machine

A run executes symbols until the program comes to its end or a step fails. It need not end, so
every run here is given *fuel*, the number of steps it may take at most, and gives no answer if that
is not enough.

## Pacing

A paced run pauses between one step and the next. It does not pause before the first step, nor after
the last, whichever way the run ends. How long a pause takes changes nothing about a run, so a paced
run only counts its pauses.

## Following a run

A host may also make a given number of steps, and look at the machine after each of them.
-/

namespace Brainfuck.Machine

variable {ω ι : Type}

/-- What a host notes about a machine after a step: the instruction pointer, the address of the head
and the value of the cell under it. -/
structure Sighting where
  /-- The instruction pointer. -/
  ip : Nat
  /-- The address of the head. -/
  head : Int
  /-- The cell under the head. -/
  cell : UInt8
deriving DecidableEq, Repr

/-- Note what there is to note about a machine. -/
def sight (m : Machine ω ι) : Sighting := ⟨m.ip, m.state.head, m.cell⟩

variable [OutputDevice ω] [InputDevice ι]

/-! ## Runs to the end -/

/-- Execute symbols until the program ends or a step fails, for `fuel` steps at most. -/
def run : (fuel : Nat) → Machine ω ι → Option (Except RuntimeError Unit × Machine ω ι)
  | fuel, m =>
    if m.terminated then some (.ok (), m)
    else
      match fuel with
      | 0 => none
      | fuel + 1 =>
        match m.step with
        | (.ok (), m) => run fuel m
        | (.error e, m) => some (.error e, m)

/-- Like `run`, with a pause between one step and the next; `pauses` is how many there were so far,
and the answer says how many there were in all. -/
def runPaced : (fuel pauses : Nat) → Machine ω ι →
    Option (Except RuntimeError Unit × Machine ω ι × Nat)
  | fuel, pauses, m =>
    if m.terminated then some (.ok (), m, pauses)
    else
      match fuel with
      | 0 => none
      | fuel + 1 =>
        match m.step with
        | (.error e, m) => some (.error e, m, pauses)
        | (.ok (), m) => runPaced fuel (if m.terminated then pauses else pauses + 1) m

/-! ## Counted steps -/

/-- Execute `n` symbols, or fewer if a step fails. -/
def stepMany : Nat → Machine ω ι → Except RuntimeError Unit × Machine ω ι
  | 0, m => (.ok (), m)
  | n + 1, m =>
    match m.step with
    | (.ok (), m) => stepMany n m
    | (.error e, m) => (.error e, m)

/-- Execute `n` symbols, going on after each step that fails: the results of the steps, and the
machine after them. -/
def stepAll : Nat → Machine ω ι → List (Except RuntimeError Unit) × Machine ω ι
  | 0, m => ([], m)
  | n + 1, m =>
    let (r, m) := m.step
    let (rs, m) := stepAll n m
    (r :: rs, m)

/-- Like `stepMany`, with a note of the machine after each step that succeeds; `seen` are the notes
so far. -/
def trace : Nat → Array Sighting → Machine ω ι →
    Array Sighting × Except RuntimeError Unit × Machine ω ι
  | 0, seen, m => (seen, .ok (), m)
  | n + 1, seen, m =>
    match m.step with
    | (.ok (), m) => trace n (seen.push m.sight) m
    | (.error e, m) => (seen, .error e, m)

/-! ## Their equations -/

theorem run_of_terminated {m : Machine ω ι} (h : m.terminated = true) (fuel : Nat) :
    run fuel m = some (.ok (), m) := by
  unfold run
  simp [h]

theorem run_zero {m : Machine ω ι} (h : m.terminated = false) : run 0 m = none := by
  unfold run
  simp [h]

theorem run_succ {m : Machine ω ι} (h : m.terminated = false) (fuel : Nat) :
    run (fuel + 1) m =
      match m.step with
      | (.ok (), m) => run fuel m
      | (.error e, m) => some (.error e, m) := by
  rw [run]
  simp [h]

@[simp] theorem stepMany_zero (m : Machine ω ι) : stepMany 0 m = (.ok (), m) := rfl

theorem stepMany_succ (n : Nat) (m : Machine ω ι) :
    stepMany (n + 1) m =
      match m.step with
      | (.ok (), m) => stepMany n m
      | (.error e, m) => (.error e, m) := rfl

@[simp] theorem stepAll_zero (m : Machine ω ι) : stepAll 0 m = ([], m) := rfl

theorem stepAll_succ (n : Nat) (m : Machine ω ι) :
    stepAll (n + 1) m = (m.step.1 :: (stepAll n m.step.2).1, (stepAll n m.step.2).2) := rfl

end Brainfuck.Machine
