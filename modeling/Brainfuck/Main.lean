import Brainfuck.CommandLine.Session

/-!
# The command

The outer layer of the command: it reads arguments, environment, files and the standard input,
writes to the standard outputs, and waits. What is to be done is decided by
`Brainfuck.CommandLine.Launch`; the machine that is run here, and each of its turns, are those of a
session there.

The machine itself cannot touch a device, so each step of it is prepared. Before a symbol that
writes, the byte is written, and how that went is laid down as the answer of a scripted device.
Before a symbol that reads, what the background reader has read by then is delivered to the feed.
-/

namespace Brainfuck.CommandLine

/-- The machine that the command runs. -/
abbrev HostMachine := Machine ScriptedOutput Feed

/-- What is said about a failure of the operating system with a number. -/
def systemText (code : UInt32) (details : String) : String :=
  details ++ " (os error " ++ code.toNat.repr ++ ")"

/-- A failure of the operating system as a fault of a device. -/
def faultOf : IO.Error → Fault
  | .interrupted _ code details => ⟨.interrupted, systemText code details⟩
  | .resourceVanished code details => ⟨.brokenPipe, systemText code details⟩
  | .resourceExhausted _ code details => ⟨.storageFull, systemText code details⟩
  | .inappropriateType _ code details => ⟨.isDirectory, systemText code details⟩
  | .permissionDenied _ code details => ⟨.permissionDenied, systemText code details⟩
  | .timeExpired code details => ⟨.timedOut, systemText code details⟩
  | e => ⟨.other, e.toString⟩

/-- Read the text of a file. -/
def readFileText (path : String) : IO (Except FileError String) := do
  try
    let contents ← (← IO.FS.Handle.mk path .read).readBinToEnd
    return match String.fromUTF8? contents with
      | some text => .ok text
      | none => .error .notText
  catch
    | .noFileOrDirectory _ _ _ => return .error .notFound
    | e => return .error (.other (faultOf e).text)

/-- Read the standard input to its end, one chunk at a time, and put each result on a list. -/
partial def readInput (stdin : IO.FS.Stream) (arrived : IO.Ref (List ReadResult)) : IO Unit := do
  let result : ReadResult ←
    try
      pure (.ok (← stdin.read Feed.chunkSize.toUSize).toList)
    catch e => pure (.error (faultOf e))
  arrived.modify (· ++ [result])
  match result with
  | .ok (_ :: _) => readInput stdin arrived
  | .ok [] => pure ()
  | .error f => if f.kind = .interrupted then readInput stdin arrived else pure ()

/-- Wait until something has been read, for a tenth of a second at most. -/
def awaitInput (arrived : IO.Ref (List ReadResult)) : IO Unit := do
  for _ in [0:100] do
    if (← arrived.get).isEmpty then IO.sleep 1 else return

/-- Wait for a number of milliseconds. -/
def pauseFor (ms : UInt64) : IO Unit := IO.sleep (min ms 4294967295).toUInt32

/-- Do what the next symbol asks of the devices. -/
def prepare (stdout : IO.FS.Stream) (arrived : IO.Ref (List ReadResult)) (m : HostMachine) :
    IO HostMachine := do
  match m.command?, m.state.output, m.state.input with
  | some .output, some _, _ =>
    let reply ←
      try
        stdout.write ⟨#[m.cell]⟩
        stdout.flush
        pure none
      catch e => pure (some (faultOf e))
    return { m with state := { m.state with output := some ⟨[reply], #[]⟩ } }
  | some .input, _, some feed =>
    let results ← arrived.modifyGet fun results ↦ (results, [])
    return { m with state := { m.state with input := some (results.foldl Feed.deliver feed) } }
  | _, _, _ => return m

/-- Run a machine to its end, turn by turn. -/
partial def drive (l : Launch) (stdout stderr : IO.FS.Stream) (arrived : IO.Ref (List ReadResult))
    (m : HostMachine) : IO UInt32 := do
  let m ← prepare stdout arrived m
  match turn l.filter l.filter.showsJumps l.settings.delay.isSome "" m with
  | .over result log m =>
    let exit := l.epilogue result m
    stderr.putStr (log ++ exit.stderr)
    return exit.code.toUInt32
  | .next pausing log m =>
    stderr.putStr log
    if pausing then l.settings.delay.forM pauseFor
    drive l stdout stderr arrived m

/-- End the command. -/
def stop (exit : Exit) : IO UInt32 := do
  IO.eprint exit.stderr
  return exit.code.toUInt32

/-- Start to read the standard input in the background, which always succeeds here. A terminal is
not waited for. -/
def openInput (arrived : IO.Ref (List ReadResult)) : IO (Feed × Option Bool) := do
  let stdin ← IO.getStdin
  discard <| IO.asTask (readInput stdin arrived) Task.Priority.dedicated
  if ← stdin.isTty then return ({}, none)
  awaitInput arrived
  let results ← arrived.modifyGet fun results ↦ (results, [])
  let feed := (results.foldl Feed.deliver {}).await
  return (feed, some feed.ready)

/-- Run what is to be launched. -/
def conduct (l : Launch) : IO UInt32 := do
  let arrived ← IO.mkRef []
  let (feed, ready) ← if l.reads then openInput arrived else pure ({}, none)
  match l.start l.reads ⟨[], #[]⟩ (.ok feed) ready with
  | .error exit => stop exit
  | .ok (log, m) =>
    let stderr ← IO.getStderr
    stderr.putStr log
    drive l (← IO.getStdout) stderr arrived m

/-- Carry out the command with the given arguments. -/
def carryOut (args : List String) : IO UInt32 := do
  let name := "bfvm"
  let values ← variableNames.filterMapM fun k ↦ do return (← IO.getEnv k).map fun v ↦ (k, v)
  let var (k : String) : Option String := values.lookup k
  match (RunArguments.ofArguments name args).bind (Request.ofRunArguments name) with
  | .error exit => stop exit
  | .ok request =>
    let paths := request.source.paths ++ (configPath var).toList
    let texts ← paths.mapM fun path ↦ do return (path, ← readFileText path)
    let read (path : String) := (texts.lookup path).getD (.error .notFound)
    match Launch.ofRequest name (Filter.resolve var) var read request with
    | .error exit => stop exit
    | .ok launch => conduct launch

end Brainfuck.CommandLine

/-- The command. -/
def main (args : List String) : IO UInt32 := Brainfuck.CommandLine.carryOut args
