import Brainfuck.CommandLine.Arguments
import Brainfuck.CommandLine.Directive
import Brainfuck.CommandLine.Launch
import Brainfuck.Device.Feed

/-!
# A session of the command

From the arguments to the exit code. The arguments are read, which may already be the end of it:
help about the command, or a complaint. Otherwise the subcommand `run` is carried out, with a filter
that the environment may set, on a feed that reads the standard input in the background.

Before the run a session waits for the input to arrive, but not for a terminal.
-/

namespace Brainfuck.CommandLine

/-- All environment variables that a session looks at. -/
def variableNames : List String :=
  [configVariable, configHomeVariable, homeVariable, Settings.delayVariable,
    Settings.policyVariable, Filter.settingVariable]

/-- The arguments of `run` in the arguments of the command; `name` is the name it was called by. -/
def RunArguments.ofArguments (name : String) (args : List String) : Except Exit RunArguments :=
  match Arguments.parse args with
  | .error e => .error ⟨2, "error: " ++ e.message ++ "\n"⟩
  | .ok ⟨true, _⟩ => .error ⟨0, usage name⟩
  | .ok ⟨false, none⟩ => .error ⟨2, usage name⟩
  | .ok ⟨false, some run⟩ => .ok run

/-- What a command finds when it is called. -/
structure Invocation where
  /-- The name it is called by. -/
  name : String := "bfvm"
  /-- Its arguments. -/
  args : List String
  /-- The value of each environment variable that is set. -/
  var : String → Option String
  /-- The text of a file. -/
  read : String → Except FileError String
  /-- Whether the standard input can be read in the background. -/
  opened : Except Fault Unit := .ok ()
  /-- The standard input is a terminal. -/
  terminal : Bool := false

namespace Invocation

/-- The feed that a session finds when `arrivals` have arrived at the standard input. -/
def feed (i : Invocation) (arrivals : List ReadResult) : Feed :=
  if i.terminal then arrivals.foldl Feed.deliver {} else (arrivals.foldl Feed.deliver {}).await

/-- Whether a byte is ready, unless the input is a terminal. -/
def ready (i : Invocation) (arrivals : List ReadResult) : Option Bool :=
  if i.terminal then none else some (i.feed arrivals).ready

/-- A whole session. What arrives at the standard input before the first look at it is in
`arrivals`. -/
def run {ω : Type} [OutputDevice ω] (i : Invocation) (output : ω) (arrivals : List ReadResult)
    (interrupted : Machine ω Feed → Bool) (fuel : Nat) : Option (Outcome ω Feed) :=
  match RunArguments.ofArguments i.name i.args with
  | .error exit => some ⟨exit, none⟩
  | .ok a =>
    a.carryOut i.name (Filter.resolve i.var) i.var i.read output
      (i.opened.map fun _ ↦ i.feed arrivals) (i.ready arrivals) interrupted fuel

end Invocation

end Brainfuck.CommandLine
