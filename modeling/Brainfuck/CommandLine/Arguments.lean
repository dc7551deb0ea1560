import Brainfuck.CommandLine.Request
import Brainfuck.Text.Lines
import Brainfuck.Text.Terminal

/-!
# Arguments of the command

The command has one subcommand, `run`, and a flag that asks for help. The subcommand has flags,
options that take a value, and the parts of a program, which are put together to one text.

## How arguments are read

Arguments are read from left to right. An argument that starts with two dashes names a flag or an
option, perhaps with a value behind an equals sign; one that starts with a single dash is a cluster
of one-letter names, and the first letter that takes a value takes the rest of the cluster. Anything
else, a lone dash and the empty text included, is plain. The first plain argument of `run` that no
option is waiting for starts the program, and from there on every argument belongs to the program,
whatever it looks like. So does every argument behind a bare `--`.

## Which error is reported

An option keeps its value unexamined until the next flag, option or part of the program is read, or
until there are no more arguments. Only then is it checked: that it has a value, that it was not
given before, and that the value can be read. Reading stops at the first error, so a name that does
not exist, or a flag that is given a value, is reported before anything about the option in front of
it.
-/

namespace Brainfuck.CommandLine

/-! ## Names -/

/-- The flags of `run`. -/
inductive Switch where
  | noInput
  | noOutput
  | verbose
  | help
deriving DecidableEq, Repr

/-- The options of `run` that take a value. -/
inductive Valued where
  | file
  | delay
  | policy
deriving DecidableEq, Repr

/-- What a name stands for. -/
inductive Parameter where
  | switch (s : Switch)
  | valued (v : Valued)
deriving DecidableEq, Repr

/-- How a flag is written. -/
def Switch.usage : Switch → String
  | noInput => "--no-input"
  | noOutput => "--no-output"
  | verbose => "--verbose"
  | help => "--help"

/-- How an option is written, with a word for its value. -/
def Valued.usage : Valued → String
  | file => "--file <FILE>"
  | delay => "--delay <MS>"
  | policy => "--io-policy <POLICY>"

/-- What a name behind two dashes stands for. -/
def Parameter.ofLong? (name : List Char) : Option Parameter :=
  if name = "file".toList then some (.valued .file)
  else if name = "delay".toList then some (.valued .delay)
  else if name = "io-policy".toList then some (.valued .policy)
  else if name = "no-input".toList then some (.switch .noInput)
  else if name = "no-output".toList then some (.switch .noOutput)
  else if name = "verbose".toList then some (.switch .verbose)
  else if name = "help".toList then some (.switch .help)
  else none

/-- What a letter behind a single dash stands for. -/
def Parameter.ofShort? (c : Char) : Option Parameter :=
  if c = 'f' then some (.valued .file)
  else if c = 'v' then some (.switch .verbose)
  else if c = 'h' then some (.switch .help)
  else none

/-! ## Errors -/

/-- What is wrong with the arguments. -/
inductive ArgumentError where
  /-- No flag or option has this name, or a subcommand stands where none can. -/
  | unexpected (arg : String)
  /-- There is no such subcommand. -/
  | unknownSubcommand (name : String)
  /-- A flag was given a value. -/
  | unexpectedValue (value flag : String)
  /-- An option was given no value. -/
  | missingValue (option : String)
  /-- A flag or an option was given twice. -/
  | repeated (parameter : String)
  /-- The value of an option cannot be read. -/
  | invalidValue (value option reason : String)
deriving DecidableEq, Repr

/-- A name or a value, in a colour of its own and between quotes. -/
def quoted (arg : String) : String := "'\x1b[33m" ++ arg ++ "\x1b[0m'"

/-- What is said about the arguments, in colours. -/
def ArgumentError.coloured : ArgumentError → String
  | unexpected arg => "unexpected argument " ++ quoted arg ++ " found"
  | unknownSubcommand name => "unrecognized subcommand " ++ quoted name
  | unexpectedValue value flag =>
    "unexpected value " ++ quoted value ++ " for " ++ quoted flag ++
      " found; no more were expected"
  | missingValue option => "a value is required for " ++ quoted option ++ " but none was supplied"
  | repeated parameter => "the argument " ++ quoted parameter ++ " cannot be used multiple times"
  | invalidValue value option reason =>
    "invalid value " ++ quoted value ++ " for " ++ quoted option ++ ": " ++ reason

/-- What is said about the arguments. The colours are taken out together with all that would control
a terminal, so a control sequence in an argument is not shown either. -/
def ArgumentError.message (e : ArgumentError) : String :=
  String.ofList (Text.Terminal.plain e.coloured.toList)

/-! ## The shape of an argument -/

/-- What an argument looks like. -/
inductive Shape where
  /-- A bare `--`. -/
  | escape
  /-- A name behind two dashes, perhaps with a value behind an equals sign. -/
  | long (name : List Char) (value : Option (List Char))
  /-- Letters behind a single dash. -/
  | short (letters : List Char)
  /-- Anything else. -/
  | plain
deriving DecidableEq, Repr

/-- What an argument looks like. -/
def Shape.ofArgument : List Char → Shape
  | ['-', '-'] => .escape
  | '-' :: '-' :: body =>
    match Text.cutAt '=' body with
    | some (name, value) => .long name (some value)
    | none => .long body none
  | ['-'] => .plain
  | '-' :: letters => .short letters
  | _ => .plain

/-! ## The arguments of `run` -/

namespace RunArguments

/-- Whether a flag has been given. -/
def hasSwitch (a : RunArguments) : Switch → Bool
  | .noInput => a.flags.noInput
  | .noOutput => a.flags.noOutput
  | .verbose => a.verbose
  | .help => a.help

/-- Give a flag. -/
def setSwitch (a : RunArguments) : Switch → RunArguments
  | .noInput => { a with flags := { a.flags with noInput := true } }
  | .noOutput => { a with flags := { a.flags with noOutput := true } }
  | .verbose => { a with verbose := true }
  | .help => { a with help := true }

/-- Whether an option has been given. -/
def hasValued (a : RunArguments) : Valued → Bool
  | .file => a.file.isSome
  | .delay => a.flags.delay.isSome
  | .policy => a.flags.policy.isSome

/-- Read the value of an option. -/
def setValued (a : RunArguments) (v : Valued) (value : List Char) :
    Except ArgumentError RunArguments :=
  match v with
  | .file => .ok { a with file := some (String.ofList value) }
  | .delay =>
    match Text.Numeral.parse value with
    | .ok ms => .ok { a with flags := { a.flags with delay := some ms } }
    | .error e => .error (.invalidValue (String.ofList value) v.usage e.message)
  | .policy =>
    match FailurePolicy.parse value with
    | .ok k => .ok { a with flags := { a.flags with policy := some k } }
    | .error e => .error (.invalidValue (String.ofList value) v.usage e.message)

end RunArguments

/-- The arguments read so far, with the option that was read last and is still to be checked: it has
a value, or it is waiting for one. -/
structure Reading where
  /-- What has been read and checked. -/
  arguments : RunArguments := {}
  /-- The option that is still to be checked. -/
  pending : Option (Valued × Option (List Char)) := none

namespace Reading

/-- Check an option that was given a value, or none, and take it over. -/
def accept (a : RunArguments) (v : Valued) : Option (List Char) → Except ArgumentError RunArguments
  | none => .error (.missingValue v.usage)
  | some value => if a.hasValued v then .error (.repeated v.usage) else a.setValued v value

/-- Check the option that is still to be checked. -/
def settle (r : Reading) : Except ArgumentError RunArguments :=
  match r.pending with
  | none => .ok r.arguments
  | some (v, value) => accept r.arguments v value

/-- Read a flag. -/
def addSwitch (r : Reading) (s : Switch) : Except ArgumentError Reading :=
  match r.settle with
  | .error e => .error e
  | .ok a => if a.hasSwitch s then .error (.repeated s.usage) else .ok ⟨a.setSwitch s, none⟩

/-- Read an option with its value. -/
def addValued (r : Reading) (v : Valued) (value : List Char) : Except ArgumentError Reading :=
  match r.settle with
  | .error e => .error e
  | .ok a => (accept a v (some value)).map (⟨·, none⟩)

/-- Read an option whose value is still to come. -/
def awaitValue (r : Reading) (v : Valued) : Except ArgumentError Reading :=
  r.settle.map (⟨·, some (v, none)⟩)

/-- Read a name behind two dashes. -/
def addLong (r : Reading) (name : List Char) (value : Option (List Char)) :
    Except ArgumentError Reading :=
  match Parameter.ofLong? name, value with
  | none, _ => .error (.unexpected ("--" ++ String.ofList name))
  | some (.switch s), some value => .error (.unexpectedValue (String.ofList value) s.usage)
  | some (.switch s), none => r.addSwitch s
  | some (.valued v), some value => r.addValued v value
  | some (.valued v), none => r.awaitValue v

/-- Read a cluster of letters. -/
def addShort (r : Reading) : List Char → Except ArgumentError Reading
  | [] => .ok r
  | c :: rest =>
    match Parameter.ofShort? c with
    | none => .error (.unexpected ("-" ++ c.toString))
    | some (.switch s) =>
      match r.addSwitch s with
      | .error e => .error e
      | .ok r => r.addShort rest
    | some (.valued v) =>
      match rest with
      | [] => r.awaitValue v
      | '=' :: value => r.addValued v value
      | value => r.addValued v value

/-- The rest of the arguments are parts of the program. -/
def finish (r : Reading) (code : List String) : Except ArgumentError RunArguments :=
  r.settle.map ({ · with code })

/-- Read the arguments of `run` behind those read so far. -/
def readAll (r : Reading) : List String → Except ArgumentError RunArguments
  | [] => r.finish []
  | arg :: rest =>
    match Shape.ofArgument arg.toList with
    | .escape => r.finish rest
    | .long name value =>
      match r.addLong name value with
      | .error e => .error e
      | .ok r => r.readAll rest
    | .short letters =>
      match r.addShort letters with
      | .error e => .error e
      | .ok r => r.readAll rest
    | .plain =>
      match r.pending with
      | some (v, none) => readAll ⟨r.arguments, some (v, some arg.toList)⟩ rest
      | _ => r.finish (arg :: rest)

end Reading

/-! ## All arguments -/

/-- What all the arguments of the command say. -/
structure Arguments where
  /-- Help about the whole command is asked for. -/
  help : Bool := false
  /-- The arguments of `run`, if that was the subcommand. -/
  run : Option RunArguments := none
deriving DecidableEq, Repr

namespace Arguments

/-- The name of the subcommand. -/
def subcommand : String := "run"

/-- Read a cluster of letters in front of the subcommand; `help` says whether help was asked for
before. -/
def readLetters : (help : Bool) → List Char → Except ArgumentError Bool
  | help, [] => .ok help
  | help, c :: rest =>
    if c = 'h' then
      if help then .error (.repeated Switch.help.usage) else readLetters true rest
    else .error (.unexpected ("-" ++ c.toString))

/-- Read the arguments; `help` says whether help was asked for before. -/
def readAll : (help : Bool) → List String → Except ArgumentError Arguments
  | help, [] => .ok { help }
  | help, arg :: rest =>
    if arg = subcommand then (Reading.readAll {} rest).map fun run ↦ { help, run := some run }
    else
      match Shape.ofArgument arg.toList with
      | .escape =>
        match rest with
        | [] => .ok { help }
        | next :: _ =>
          if next = subcommand then .error (.unexpected next) else .error (.unknownSubcommand next)
      | .long name value =>
        if name = "help".toList then
          match value with
          | some value => .error (.unexpectedValue (String.ofList value) Switch.help.usage)
          | none => if help then .error (.repeated Switch.help.usage) else readAll true rest
        else .error (.unexpected ("--" ++ String.ofList name))
      | .short letters =>
        match readLetters help letters with
        | .error e => .error e
        | .ok help => readAll help rest
      | .plain => .error (.unknownSubcommand arg)

/-- Read the arguments of the command. -/
def parse (args : List String) : Except ArgumentError Arguments := readAll false args

end Arguments

end Brainfuck.CommandLine
