import Brainfuck.Program.Brackets
import Brainfuck.Machine.State

/-!
# The machine

A machine executes its program one symbol at a time. Its *instruction pointer* is the index of the
next symbol; the program has come to its end when there is none.

## One step

First the machine finds out where control goes. That is the next symbol, unless a bracket makes a
jump, and a jump goes to the symbol *behind* the partner: out of a loop that is skipped, or back to
the first symbol of a loop that is repeated. If there is no symbol to execute, or the jump has no
partner to go to, the step fails and the machine is left as it was.

Otherwise the symbol counts as executed: the pointer moves on, the step is counted, and only then
does the symbol do its work. So a device that fails leaves a machine that has moved past the symbol,
and stepping on from there does not repeat it.
-/

namespace Brainfuck

/-! ## Jumps -/

/-- Where the jump from the `[` at index `i` goes: behind its partner. -/
def Program.jumpForward (p : Program) (i : Nat) : Except RuntimeError Nat :=
  match p.closing? i with
  | some j => .ok (j + 1)
  | none => .error (.unmatched i .opening)

/-- Where the jump from the `]` at index `i` goes: behind its partner. -/
def Program.jumpBackward (p : Program) (i : Nat) : Except RuntimeError Nat :=
  match p.opening? i with
  | some j => .ok (j + 1)
  | none => .error (.unmatched i .closing)

/-! ## Machines -/

/-- A program at some point of its execution. -/
structure Machine (ω ι : Type) where
  /-- The program. -/
  program : Program
  /-- The index of the next symbol. -/
  ip : Nat := 0
  /-- How many symbols have been executed. -/
  steps : Nat := 0
  /-- What the program works on. -/
  state : State ω ι := {}

namespace Machine

variable {ω ι : Type}

/-- The value of the cell under the head. -/
def cell (m : Machine ω ι) : UInt8 := m.state.cell

/-- Whether the program has come to its end. -/
def terminated (m : Machine ω ι) : Bool := m.ip = m.program.size

/-- The command under the instruction pointer; there is none at the end or at a comment. -/
def command? (m : Machine ω ι) : Option Command := m.program.commandAt m.ip

/-- Where control goes from the symbol under the instruction pointer. -/
def target (m : Machine ω ι) : Except RuntimeError Nat :=
  if m.ip < m.program.size then
    match m.command? with
    | some .loopStart => if m.cell = 0 then m.program.jumpForward m.ip else .ok (m.ip + 1)
    | some .loopEnd => if m.cell = 0 then .ok (m.ip + 1) else m.program.jumpBackward m.ip
    | _ => .ok (m.ip + 1)
  else .error (.terminated m.ip)

theorem target_of_start {m : Machine ω ι} (h : m.command? = some .loopStart) :
    m.target = if m.cell = 0 then m.program.jumpForward m.ip else .ok (m.ip + 1) := by
  rw [target, if_pos (Program.lt_size_of_commandAt h), h]

theorem target_of_end {m : Machine ω ι} (h : m.command? = some .loopEnd) :
    m.target = if m.cell = 0 then .ok (m.ip + 1) else m.program.jumpBackward m.ip := by
  rw [target, if_pos (Program.lt_size_of_commandAt h), h]

/-- From a symbol that is not a bracket control goes to the next one. -/
theorem target_of_ne {m : Machine ω ι} (hip : m.ip < m.program.size)
    (hstart : m.command? ≠ some .loopStart) (hend : m.command? ≠ some .loopEnd) :
    m.target = .ok (m.ip + 1) := by
  rw [target, if_pos hip]
  split
  · next h => exact absurd h hstart
  · next h => exact absurd h hend
  · rfl

/-- Behind the program there is nothing to execute. -/
theorem target_of_size_le {m : Machine ω ι} (hip : m.program.size ≤ m.ip) :
    m.target = .error (.terminated m.ip) := by
  rw [target, if_neg (Nat.not_lt.2 hip)]

variable [OutputDevice ω] [InputDevice ι]

/-- Execute one symbol. -/
def step (m : Machine ω ι) : Except RuntimeError Unit × Machine ω ι :=
  match m.target with
  | .error e => (.error e, m)
  | .ok next =>
    let (r, state) := m.state.exec m.ip m.command?
    (r, { m with ip := next, steps := m.steps + 1, state })

/-! ## What a step does -/

/-- A step that does not find where to go changes nothing. -/
theorem step_of_target_error {m : Machine ω ι} {e : RuntimeError} (h : m.target = .error e) :
    m.step = (.error e, m) := by
  simp [step, h]

/-- A step that finds where to go executes the symbol. -/
theorem step_of_target_ok {m : Machine ω ι} {next : Nat} (h : m.target = .ok next) :
    m.step =
      ((m.state.exec m.ip m.command?).1,
        { m with
          ip := next
          steps := m.steps + 1
          state := (m.state.exec m.ip m.command?).2 }) := by
  simp [step, h, command?]

@[simp] theorem step_program (m : Machine ω ι) : m.step.2.program = m.program := by
  cases h : m.target with
  | error e => rw [step_of_target_error h]
  | ok next => rw [step_of_target_ok h]

end Machine

end Brainfuck
