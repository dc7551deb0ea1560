import Brainfuck.FailurePolicy
import Brainfuck.Text.Figures
import Brainfuck.Text.Numeral

/-!
# Settings of a run

How a program is run: whether there is a pause between its steps, which devices it is connected to,
and what happens when one of them fails.

## Layers

Settings are put together from layers: the values that hold where nothing is said, a configuration
file, the environment, and the flags of a command. A later layer replaces what it speaks about and
leaves the rest. The environment speaks about the pause and the failure policy only, and a variable
that cannot be read is the same as one that is not there.
-/

namespace Brainfuck

/-- How a program is run. -/
structure Settings where
  /-- The pause between one step and the next, in milliseconds. -/
  delay : Option UInt64 := none
  /-- The program can read. -/
  input : Bool := true
  /-- The program can write. -/
  output : Bool := true
  /-- What happens when a device fails. -/
  policy : FailurePolicy := .standard
deriving DecidableEq, Repr

/-- A stretch of time in whole seconds and the nanoseconds beyond them. -/
structure Duration where
  /-- Whole seconds. -/
  seconds : Nat
  /-- Nanoseconds beyond them. -/
  nanoseconds : Nat
deriving DecidableEq, Repr

/-- A number of milliseconds as a stretch of time. -/
def Duration.ofMilliseconds (ms : Nat) : Duration := ⟨ms / 1000, ms % 1000 * 1000000⟩

namespace Settings

/-- The pause between steps as a stretch of time. -/
def pause (s : Settings) : Option Duration := s.delay.map (Duration.ofMilliseconds ·.toNat)

/-! ## Values -/

/-- Read a truth value: a word for yes or no, without regard to blanks around it or to case. -/
def truth? (cs : List Char) : Option Bool :=
  let word := Text.lower (Text.trim cs)
  if word ∈ ["true".toList, "yes".toList, "on".toList, "1".toList] then some true
  else if word ∈ ["false".toList, "no".toList, "off".toList, "0".toList] then some false
  else none

/-- Read a pause in milliseconds. -/
def delay? (cs : List Char) : Option UInt64 := (Text.Numeral.parse cs).toOption

/-- Read a failure policy. -/
def policy? (cs : List Char) : Option FailurePolicy := (FailurePolicy.parse cs).toOption

/-! ## The environment -/

/-- The environment variable for the pause between steps. -/
def delayVariable : String := "BFVM_DELAY_MS"

/-- The environment variable for the failure policy. -/
def policyVariable : String := "BFVM_IO_POLICY"

/-- Replace what the environment speaks about; `var` gives the value of a variable that is set. -/
def withEnvironment (s : Settings) (var : String → Option String) : Settings :=
  { s with
    delay := ((var delayVariable).bind fun v ↦ delay? (Text.trim v.toList)).or s.delay
    policy := ((var policyVariable).bind fun v ↦ policy? v.toList).getD s.policy }

/-- The environment does not speak about the input. -/
@[simp] theorem withEnvironment_input (s : Settings) (var : String → Option String) :
    (s.withEnvironment var).input = s.input := rfl

/-- The environment does not speak about the output. -/
@[simp] theorem withEnvironment_output (s : Settings) (var : String → Option String) :
    (s.withEnvironment var).output = s.output := rfl

/-! ## Flags -/

/-- What the flags of a command say about the settings. -/
structure Flags where
  /-- The pause that was asked for. -/
  delay : Option UInt64 := none
  /-- The failure policy that was asked for. -/
  policy : Option FailurePolicy := none
  /-- The program is not to read. -/
  noInput : Bool := false
  /-- The program is not to write. -/
  noOutput : Bool := false
deriving DecidableEq, Repr

/-- Replace what the flags speak about. -/
def withFlags (s : Settings) (f : Flags) : Settings where
  delay := f.delay.or s.delay
  input := s.input && !f.noInput
  output := s.output && !f.noOutput
  policy := f.policy.getD s.policy

/-! ## Settings in words -/

/-- How a pause is shown. -/
def showDelay : Option UInt64 → String
  | none => "None"
  | some ms => "Some(" ++ ms.toNat.repr ++ ")"

/-- The settings on one line. -/
def describe (s : Settings) : String :=
  "RunSettings \x7b delay_ms: " ++ showDelay s.delay ++ ", input: " ++ Text.ofTruth s.input
    ++ ", output: " ++ Text.ofTruth s.output ++ ", io_policy: " ++ s.policy.label ++ " \x7d"

end Settings

end Brainfuck
