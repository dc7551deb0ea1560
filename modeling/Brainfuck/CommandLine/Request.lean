import Brainfuck.CommandLine.Files
import Brainfuck.CommandLine.Usage
import Brainfuck.Settings.Basic

/-!
# Requests

What the subcommand `run` is asked to do. Its arguments have been read by then, in whatever way they
were written; here they are looked at together. They may ask for help, they may contradict each
other, and otherwise they say which program is to be run, and how.
-/

namespace Brainfuck.CommandLine

/-- How a command ends: its exit code and what it writes to the error output. -/
structure Exit where
  /-- The exit code. -/
  code : Nat
  /-- The text on the error output. -/
  stderr : String
deriving DecidableEq, Repr

/-- What the arguments of `run` say. -/
structure RunArguments where
  /-- The file that holds the program. -/
  file : Option String := none
  /-- What is said about the settings. -/
  flags : Settings.Flags := {}
  /-- Events of the run are to be logged. -/
  verbose : Bool := false
  /-- Help is asked for. -/
  help : Bool := false
  /-- The parts of the program. -/
  code : List String := []
deriving DecidableEq, Repr

/-- Where the program comes from. -/
inductive CodeSource where
  /-- The arguments, put together. -/
  | inline (code : String)
  /-- A file. -/
  | file (path : String)
deriving DecidableEq, Repr

/-- The text of the program; `read` gives the text of a file. -/
def CodeSource.load (read : String → Except FileError String) :
    CodeSource → Except FileError String
  | inline code => .ok code
  | file path => read path

/-- The files that hold the program. -/
def CodeSource.paths : CodeSource → List String
  | inline _ => []
  | file path => [path]

/-- A program is to be run. -/
structure Request where
  /-- Where the program comes from. -/
  source : CodeSource
  /-- What the flags say about the settings. -/
  flags : Settings.Flags
  /-- Events of the run are to be logged. -/
  verbose : Bool
deriving DecidableEq, Repr

namespace Request

/-- What the arguments of `run` ask for. -/
def ofRunArguments (name : String) (a : RunArguments) : Except Exit Request :=
  if a.help then .error ⟨0, runUsage name⟩
  else
    match a.file, a.code with
    | none, [] => .error ⟨2, runUsage name⟩
    | some _, _ :: _ =>
      .error ⟨2, name ++ ": cannot use positional code together with --file\n" ++ runUsage name⟩
    | some path, [] => .ok ⟨.file path, a.flags, a.verbose⟩
    | none, code => .ok ⟨.inline (String.join code), a.flags, a.verbose⟩

end Request

end Brainfuck.CommandLine
