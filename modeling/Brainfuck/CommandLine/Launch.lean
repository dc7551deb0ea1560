import Brainfuck.CommandLine.Log
import Brainfuck.CommandLine.Request
import Brainfuck.Excerpt
import Brainfuck.Settings.ConfigFile

/-!
# Launches

From a request to the end of the run. The program and the settings are put together, from the
request, the environment and the files; that is a *launch*. Then a machine is built and run, and
what it does is logged.

The error output of a session is one text, to which every stage adds: log lines, the count of device
failures that were reported, and in the end the error that the run stopped with.

## Devices

A session does not know what its devices are. The output device is connected if the settings ask for
it, and the input device if they ask for it and the program has a command that reads. The input has
to be opened for that, which can fail, and then nothing is run. An input that is not connected is
not opened either.

What a session has written to its output is what the device has accepted. A byte is flushed as soon
as it is written, so nothing is left for the flush at the very end, and that is left out.

## Interruption

A paced run can be interrupted from outside, and then it stops in one of its pauses. Here that is a
test on the machine, made in each pause.
-/

namespace Brainfuck.CommandLine

/-! ## What is run -/

/-- The environment variable that names the configuration file. -/
def configVariable : String := "BFVM_CONFIG"

/-- The environment variable for the directory of configuration files. -/
def configHomeVariable : String := "XDG_CONFIG_HOME"

/-- The environment variable for the home directory. -/
def homeVariable : String := "HOME"

/-- The name of the configuration file in its directory. -/
def configName : String := "bfvm.toml"

/-- The path of the configuration file: the one that is named, or else the one in the directory of
configuration files, or else the one below the home directory. An empty home directory is none. -/
def configPath (var : String → Option String) : Option String :=
  match var configVariable with
  | some path => some path
  | none =>
    match var configHomeVariable with
    | some directory => some (joinPath directory configName)
    | none =>
      ((var homeVariable).filter (· ≠ "")).map fun home ↦
        joinPath (joinPath home ".config") configName

/-- The settings of a run, from the text of the configuration file if there is one, the environment
and the flags. -/
def resolveSettings (config : Option String) (var : String → Option String)
    (flags : Settings.Flags) : Settings :=
  (((config.map fun text ↦ Settings.ofConfig text.toList).getD {}).withEnvironment var).withFlags
    flags

/-- The settings of a run; `read` gives the text of a file. A configuration file that cannot be read
is none. -/
def settingsFor (var : String → Option String) (read : String → Except FileError String)
    (flags : Settings.Flags) : Settings :=
  resolveSettings ((configPath var).bind fun path ↦ (read path).toOption) var flags

/-- Everything that is known before a program is run. -/
structure Launch where
  /-- The name the command was called by. -/
  name : String
  /-- The text of the program. -/
  code : String
  /-- The settings. -/
  settings : Settings
  /-- Which events are shown. -/
  filter : Filter

/-- Put together what is needed for a request. The text of a file is given by `read`, and the filter
by `filter`, which is told whether the events of the run are to be logged. -/
def Launch.ofRequest (name : String) (filter : Bool → Filter) (var : String → Option String)
    (read : String → Except FileError String) (r : Request) : Except Exit Launch :=
  match r.source.load read with
  | .error e => .error ⟨1, name ++ ": failed to read code file as UTF-8: " ++ e.message ++ "\n"⟩
  | .ok code =>
    .ok
      { name, code
        settings := settingsFor var read r.flags
        filter := filter r.verbose }

/-- What the arguments of `run` lead to before anything is run. -/
def RunArguments.launch (a : RunArguments) (name : String) (filter : Bool → Filter)
    (var : String → Option String) (read : String → Except FileError String) :
    Except Exit Launch :=
  match Request.ofRunArguments name a with
  | .error exit => .error exit
  | .ok request => Launch.ofRequest name filter var read request

/-! ## Before and after the run -/

namespace Launch

variable {ω ι : Type}

/-- Whether the program is connected to the input. -/
def reads (l : Launch) : Bool := l.settings.input && l.code.toList.contains Command.input.toChar

/-- The machine for a launch. It has the output device if the settings ask for it, and the input
device that is given. -/
def machine (l : Launch) (output : ω) (input : Option ι) : Machine ω ι where
  program := .ofString l.code
  state :=
    { output := if l.settings.output then some output else none
      input
      policy := l.settings.policy }

/-- What is logged before the run. If the input is attached, `ready` says whether a byte of it is
ready; of a terminal this is not known, and nothing is logged. -/
def preface (l : Launch) (attached : Bool) (ready : Option Bool) : String :=
  l.filter.log (.resolved l.settings)
    ++ (if attached then (ready.map fun ready ↦ l.filter.log (.polled ready)).getD "" else "")
    ++ l.filter.log
      (match l.settings.delay with
        | none => .started l.code.toList.length
        | some delay => .startedPaced l.code.toList.length delay)

/-- The end of a session whose input cannot be opened. -/
def unopened (l : Launch) (f : Fault) : Exit :=
  ⟨1, l.filter.log (.resolved l.settings) ++ l.name ++ ": failed to open stdin: " ++ f.text ++ "\n"⟩

/-- Build the machine of a session, with the input attached or not: what is logged before the run,
and the machine. -/
def start (l : Launch) (attached : Bool) (output : ω) (input : Except Fault ι)
    (ready : Option Bool) : Except Exit (String × Machine ω ι) :=
  match attached, input with
  | false, _ => .ok (l.preface false ready, l.machine output none)
  | true, .error f => .error (l.unopened f)
  | true, .ok d => .ok (l.preface true ready, l.machine output (some d))

/-- What is said after the run about failures that were reported and about its result. -/
def epilogue (l : Launch) (result : Except RuntimeError Unit) (m : Machine ω ι) : Exit :=
  let failures :=
    if m.state.failures > 0 ∧ l.settings.policy = .report then
      l.name ++ ": " ++ m.state.failures.repr ++ " I/O failure(s) during run\n"
    else ""
  match result with
  | .ok () => ⟨0, l.filter.log (.ended m.steps) ++ failures⟩
  | .error e => ⟨1, failures ++ e.render (some l.name) l.code.toList⟩

end Launch

/-! ## Outcomes -/

variable {ω ι : Type}

/-- How a run that is followed by its session comes to a stop. -/
inductive Stop where
  /-- The run is over. -/
  | finished (result : Except RuntimeError Unit)
  /-- The run was interrupted in a pause. -/
  | interrupted

/-- How a session ends: the exit, and the machine as the run left it, if there was one. -/
structure Outcome (ω ι : Type) where
  /-- The exit code and the error output. -/
  exit : Exit
  /-- The machine after the run. -/
  machine : Option (Machine ω ι)

/-- The bytes that the output device of a machine has accepted, if there is one. -/
def written [OutputDevice ω] (m : Machine ω ι) : Array UInt8 :=
  (m.state.output.map OutputDevice.accepted).getD #[]

/-- What a session has written to its output: what the device of its machine has accepted. -/
def Outcome.stdout [OutputDevice ω] (o : Outcome ω ι) : Array UInt8 :=
  (o.machine.map written).getD #[]

/-- What the session of a launch makes of a run that has stopped. -/
def Launch.conclude (l : Launch) : Stop × String × Machine ω ι → Outcome ω ι
  | (.interrupted, log, m) => ⟨⟨130, log⟩, some m⟩
  | (.finished result, log, m) =>
    ⟨⟨(l.epilogue result m).code, log ++ (l.epilogue result m).stderr⟩, some m⟩

/-! ## The run -/

/-- Add the failures to `log` that a machine has reported behind the first `reported` ones. -/
def logReports (f : Filter) (reported : Nat) (log : String) (m : Machine ω ι) : String :=
  (m.state.reports.extract reported).foldl (fun log e ↦ log ++ f.log (.failed e)) log

variable [OutputDevice ω] [InputDevice ι]

/-- One step of a machine that has made `reported` reports. The failure it reports and, if `jumps`
are shown, the jump it makes are added to `log`. -/
def loggedStep (f : Filter) (jumps : Bool) (reported : Nat) (log : String) (m : Machine ω ι) :
    Except RuntimeError Unit × String × Machine ω ι :=
  match if jumps then jumpEvent m else none with
  | none =>
    let (r, m) := m.step
    (r, logReports f reported log m, m)
  | some jump =>
    let (r, m) := m.step
    (r, log ++ f.log jump, m)

/-- Logging a step does not change its result. -/
@[simp] theorem loggedStep_result (f : Filter) (jumps : Bool) (reported : Nat) (log : String)
    (m : Machine ω ι) : (loggedStep f jumps reported log m).1 = m.step.1 := by
  unfold loggedStep
  split
  · rfl
  · rfl

/-- Logging a step does not change what it does to the machine. -/
@[simp] theorem loggedStep_machine (f : Filter) (jumps : Bool) (reported : Nat) (log : String)
    (m : Machine ω ι) : (loggedStep f jumps reported log m).2.2 = m.step.2 := by
  unfold loggedStep
  split
  · rfl
  · rfl

/-- What one turn of a session leads to. -/
inductive Turn (ω ι : Type) where
  /-- The run is over. -/
  | over (result : Except RuntimeError Unit) (log : String) (m : Machine ω ι)
  /-- A step has been made and the run goes on, after a pause or at once. -/
  | next (pausing : Bool) (log : String) (m : Machine ω ι)

/-- One turn of a session: see whether the program has come to its end, and make a step if not. What
happens is added to `log`. A paced session pauses between two steps; `jumps` says whether the filter
shows jumps. -/
def turn (f : Filter) (jumps paced : Bool) (log : String) (m : Machine ω ι) : Turn ω ι :=
  if m.terminated then .over (.ok ()) log m
  else
    match loggedStep f jumps m.state.reports.size log m with
    | (.error e, log, m) => .over (.error e) log m
    | (.ok (), log, m) => .next (paced && !m.terminated) log m

/-- Run a machine as a session does, for `fuel` steps at most, and look in each pause whether the
run is interrupted. -/
def follow (f : Filter) (jumps paced : Bool) (interrupted : Machine ω ι → Bool) :
    (fuel : Nat) → (log : String) → Machine ω ι → Option (Stop × String × Machine ω ι)
  | 0, log, m => if m.terminated then some (.finished (.ok ()), log, m) else none
  | fuel + 1, log, m =>
    match turn f jumps paced log m with
    | .over result log m => some (.finished result, log, m)
    | .next pausing log m =>
      if pausing && interrupted m then some (.interrupted, log, m)
      else follow f jumps paced interrupted fuel log m

namespace Launch

/-- Follow the run of a machine as the session of a launch does: how it stops, what has been logged
behind `log`, and the machine it leaves. -/
def followFrom (l : Launch) (interrupted : Machine ω ι → Bool) (fuel : Nat) (log : String)
    (m : Machine ω ι) : Option (Stop × String × Machine ω ι) :=
  follow l.filter l.filter.showsJumps l.settings.delay.isSome interrupted fuel log m

/-- Run what is to be launched, with the input attached or not. There is no outcome if `fuel` steps
are not enough; `ready` says whether a byte of the input is ready, unless it is a terminal. -/
def session (l : Launch) (attached : Bool) (output : ω) (input : Except Fault ι)
    (ready : Option Bool) (interrupted : Machine ω ι → Bool) (fuel : Nat) : Option (Outcome ω ι) :=
  match l.start attached output input ready with
  | .error exit => some ⟨exit, none⟩
  | .ok (log, m) => (l.followFrom interrupted fuel log m).map l.conclude

/-- Run what is to be launched. The input is attached if the program is to be connected to it. -/
def run (l : Launch) (output : ω) (input : Except Fault ι) (ready : Option Bool)
    (interrupted : Machine ω ι → Bool) (fuel : Nat) : Option (Outcome ω ι) :=
  l.session l.reads output input ready interrupted fuel

end Launch

/-- Carry out `run` with the given arguments. -/
def RunArguments.carryOut (a : RunArguments) (name : String) (filter : Bool → Filter)
    (var : String → Option String) (read : String → Except FileError String) (output : ω)
    (input : Except Fault ι) (ready : Option Bool) (interrupted : Machine ω ι → Bool)
    (fuel : Nat) : Option (Outcome ω ι) :=
  match a.launch name filter var read with
  | .error exit => some ⟨exit, none⟩
  | .ok l => l.run output input ready interrupted fuel

end Brainfuck.CommandLine
