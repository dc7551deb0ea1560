import Brainfuck.Machine.Basic
import Brainfuck.Settings.Basic

/-!
# The log of a run

Events of a run are logged as lines on the error output, as far as a filter shows them. A line gives
the level of the event, a message, and the fields of the event with their values.

## Filters

A filter goes by the kind of an event: how severe it is, which part of the program it comes from,
and which fields it has. What the values of the fields are makes no difference to it. How a filter
is written down is of no concern to a run.
-/

namespace Brainfuck.CommandLine

/-! ## Levels -/

/-- How severe an event is. -/
inductive Level where
  | error
  | warn
  | info
  | debug
  | trace
deriving DecidableEq, Repr

namespace Level

/-- How chatty a log is that shows events of this level. -/
def rank : Level → Nat
  | error => 1
  | warn => 2
  | info => 3
  | debug => 4
  | trace => 5

/-- The name of a level, set to the right of five columns. -/
def label : Level → String
  | error => "ERROR"
  | warn => " WARN"
  | info => " INFO"
  | debug => "DEBUG"
  | trace => "TRACE"

end Level

/-! ## Events -/

/-- The part of the program that runs a machine. -/
def machineTarget : List Char := "bf_vm::machine".toList

/-- The part of the program that prepares a run. -/
def runTarget : List Char := "bf_vm::commands::run".toList

/-- Something that is logged. -/
inductive Event where
  /-- The settings of the run are known. -/
  | resolved (settings : Settings)
  /-- The input has been looked at before the run. -/
  | polled (ready : Bool)
  /-- A program of `length` symbols starts. -/
  | started (length : Nat)
  /-- A program of `length` symbols starts, with a pause between steps. -/
  | startedPaced (length : Nat) (delay : UInt64)
  /-- A loop is skipped. -/
  | skipped (ip target : Nat)
  /-- A loop is repeated. -/
  | repeated (ip target : Nat)
  /-- A device failed and the program goes on. -/
  | failed (error : RuntimeError)
  /-- The program came to its end. -/
  | ended (steps : Nat)

namespace Event

/-- How severe an event is. -/
def level : Event → Level
  | resolved _ | polled _ | started _ | startedPaced _ _ | ended _ => .debug
  | skipped _ _ | repeated _ _ => .trace
  | failed _ => .warn

/-- The part of the program an event comes from. -/
def target : Event → List Char
  | resolved _ | polled _ => runTarget
  | _ => machineTarget

/-- What is said about an event. -/
def message : Event → String
  | resolved _ => "resolved run settings"
  | polled _ => "polled piped stdin"
  | started _ => "running program"
  | startedPaced _ _ => "running program (paced)"
  | skipped _ _ => "cell is 0; skip loop"
  | repeated _ _ => "cell != 0; repeat loop"
  | failed _ => "I/O failure; continuing"
  | ended _ => "program terminated"

/-- The fields of an event behind its message, with their values. -/
def fields : Event → List (String × String)
  | resolved s => [("settings", s.describe)]
  | polled ready => [("ready", Text.ofTruth ready)]
  | started length => [("len", length.repr)]
  | startedPaced length delay => [("len", length.repr), ("delay_ms", delay.toNat.repr)]
  | skipped ip target | repeated ip target => [("ip", ip.repr), ("target", target.repr)]
  | failed e => [("error", e.message)]
  | ended steps => [("steps", steps.repr)]

/-- The line that an event is logged by. -/
def line (e : Event) : String :=
  e.level.label ++ " " ++ e.message
    ++ String.join (e.fields.map fun field ↦ " " ++ field.1 ++ "=" ++ field.2) ++ "\n"

end Event

/-! ## Filters -/

/-- All of an event that a filter goes by. -/
structure Event.Kind where
  /-- How severe the event is. -/
  level : Level
  /-- The part of the program the event comes from. -/
  target : List Char
  /-- The names of the fields of the event. -/
  fields : List (List Char)

/-- The kind of an event. The message counts as a field. -/
def Event.kind (e : Event) : Kind where
  level := e.level
  target := e.target
  fields := "message".toList :: e.fields.map fun field ↦ field.1.toList

/-- A filter says which kinds of events are shown. -/
def Filter := Event.Kind → Bool

namespace Filter

/-- Whether an event is shown. -/
def shows (f : Filter) (e : Event) : Bool := f e.kind

/-- Log an event, if the filter shows it. -/
def log (f : Filter) (e : Event) : String := if f.shows e then e.line else ""

/-- Whether jumps are shown, which is the same for all of them. -/
def showsJumps (f : Filter) : Bool := f.shows (.skipped 0 0) || f.shows (.repeated 0 0)

end Filter

/-! ## Jumps -/

/-- The jump that the next step of a machine makes, if it makes one. -/
def jumpEvent {ω ι : Type} (m : Machine ω ι) : Option Event :=
  match m.command?, m.target with
  | some .loopStart, .ok next => if m.cell = 0 then some (.skipped m.ip next) else none
  | some .loopEnd, .ok next => if m.cell = 0 then none else some (.repeated m.ip next)
  | _, _ => none

end Brainfuck.CommandLine
