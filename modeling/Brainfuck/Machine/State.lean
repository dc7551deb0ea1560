import Brainfuck.Tape
import Brainfuck.FailurePolicy
import Brainfuck.Device.Output
import Brainfuck.Device.Input
import Brainfuck.Machine.Error

/-!
# The state under a program

What a program works on: a tape with a head over one of its cells, and the two devices. The state
knows nothing of the text of the program. The six commands that are not brackets change it, and the
brackets only look at the cell under the head.

## Devices

Either device may be missing, and then its command does nothing at all. A byte that is not ready is
stored as `0`. When a device fails the cell under the head stays as it was, the failure is counted,
and the policy decides how it surfaces: it is either put on the list of reports, or it is the error
of the step.
-/

namespace Brainfuck

/-- A tape, a head, and the devices a program writes to and reads from. -/
structure State (ω ι : Type) where
  /-- The tape. -/
  tape : Tape := .blank
  /-- The address of the cell under the head. -/
  head : Int := 0
  /-- The device that is written to. -/
  output : Option ω := none
  /-- The device that is read from. -/
  input : Option ι := none
  /-- What to do when a device fails. -/
  policy : FailurePolicy := .standard
  /-- How often a device has failed. -/
  failures : Nat := 0
  /-- The failures that were handed to the host, the earliest first. -/
  reports : Array RuntimeError := #[]

namespace State

variable {ω ι : Type}

/-- The value of the cell under the head. -/
def cell (s : State ω ι) : UInt8 := s.tape.get s.head

/-- Store a byte in the cell under the head. -/
def store (s : State ω ι) (b : UInt8) : State ω ι := { s with tape := s.tape.set s.head b }

/-- A device failed with the error `e`. -/
def fail (s : State ω ι) (e : RuntimeError) : Except RuntimeError Unit × State ω ι :=
  match s.policy with
  | .report => (.ok (), { s with failures := s.failures + 1, reports := s.reports.push e })
  | .halt => (.error e, { s with failures := s.failures + 1 })

/-- What is stored for a poll that found no byte ready. -/
def notReady : UInt8 := 0

variable [OutputDevice ω] [InputDevice ι]

/-- Write the cell under the head, for the symbol at index `i`. -/
def write (s : State ω ι) (i : Nat) : Except RuntimeError Unit × State ω ι :=
  match s.output with
  | none => (.ok (), s)
  | some d =>
    match OutputDevice.emit s.cell d with
    | (.ok (), d) => (.ok (), { s with output := some d })
    | (.error f, d) => fail { s with output := some d } (.device i Command.output.toChar f)

/-- Read into the cell under the head, for the symbol at index `i`. -/
def read (s : State ω ι) (i : Nat) : Except RuntimeError Unit × State ω ι :=
  match s.input with
  | none => (.ok (), s)
  | some d =>
    match InputDevice.poll d with
    | (.ok b, d) => (.ok (), store { s with input := some d } (b.getD notReady))
    | (.error f, d) => fail { s with input := some d } (.device i Command.input.toChar f)

/-- What the symbol at index `i` does to the state. Comments and brackets do nothing. -/
def exec (s : State ω ι) (i : Nat) : Option Command → Except RuntimeError Unit × State ω ι
  | some .right => (.ok (), { s with head := s.head + 1 })
  | some .left => (.ok (), { s with head := s.head - 1 })
  | some .increment => (.ok (), { s with tape := (s.tape.increment s.head).2 })
  | some .decrement => (.ok (), { s with tape := (s.tape.decrement s.head).2 })
  | some .output => s.write i
  | some .input => s.read i
  | some .loopStart | some .loopEnd | none => (.ok (), s)

end State

end Brainfuck
