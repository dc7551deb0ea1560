import Brainfuck.Machine.Basic
import Brainfuck.Text.Figures

/-!
# A machine in words

A machine is described by seven figures, each with its name: on one line, or on a line each. The
devices are described only by whether they are there.
-/

namespace Brainfuck.Machine

variable {ω ι : Type}

/-- The figures that describe a machine, with their names. -/
def figures (m : Machine ω ι) : List (String × String) :=
  [("ip", m.ip.repr),
    ("len", m.program.size.repr),
    ("mp", Text.ofInt m.state.head),
    ("steps", m.steps.repr),
    ("has_sink", Text.ofTruth m.state.output.isSome),
    ("has_source", Text.ofTruth m.state.input.isSome),
    ("io_policy", m.state.policy.label)]

/-- The description on one line. -/
def describe (m : Machine ω ι) : String :=
  "VirtualMachine \x7b " ++ ", ".intercalate (m.figures.map fun f ↦ f.1 ++ ": " ++ f.2) ++ " \x7d"

/-- The description with a line for each figure. -/
def describeLong (m : Machine ω ι) : String :=
  "VirtualMachine \x7b\n" ++
    String.join (m.figures.map fun f ↦ "    " ++ f.1 ++ ": " ++ f.2 ++ ",\n") ++ "\x7d"

end Brainfuck.Machine
