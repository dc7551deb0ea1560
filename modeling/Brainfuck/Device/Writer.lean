import Brainfuck.Device.Output

/-!
# Writers that flush every byte

A writer sits over a channel that is written to and flushed by separate calls. To emit a byte it
first writes it and then flushes the channel, so that every byte is on its way before the program
goes on.

## The write phase

A call to write can accept the byte, accept nothing, or fail. An interrupted call is repeated, a
call that accepts nothing is a fault of its own, and any other fault is passed on. When the write
phase fails the channel is not flushed.

## The flush phase

The channel is flushed once for each accepted byte. A fault of the flush is passed on as it is,
also if it says that the flush was interrupted, and the byte stays accepted.
-/

namespace Brainfuck

/-- How a channel answers one call to write a byte. -/
inductive WriteReply where
  /-- The byte is accepted. -/
  | taken
  /-- The call succeeds without accepting the byte. -/
  | nothing
  /-- The call fails. -/
  | fault (f : Fault)
deriving DecidableEq

/-- A writer over a channel whose answers are laid down in two scripts. A call past the end of its
script succeeds. -/
structure Writer where
  /-- The answers to calls of write that are still to come. -/
  writes : List WriteReply := []
  /-- The answers to calls of flush that are still to come. -/
  flushes : List (Option Fault) := []
  /-- The bytes accepted so far. -/
  bytes : Array UInt8 := #[]
  /-- How often write has been called. -/
  writeCalls : Nat := 0
  /-- How often flush has been called. -/
  flushCalls : Nat := 0
deriving DecidableEq

namespace Writer

/-- The fault of a call that succeeds without accepting the byte. -/
def nothingWritten : Fault := ⟨.writeZero, "failed to write whole buffer"⟩

/-- The write phase for one byte: whether it is accepted, how many calls that takes, and the
answers that are left. -/
def writePhase : List WriteReply → Except Fault Unit × Nat × List WriteReply
  | [] => (.ok (), 1, [])
  | .taken :: rest => (.ok (), 1, rest)
  | .nothing :: rest => (.error nothingWritten, 1, rest)
  | .fault f :: rest =>
    if f.kind = .interrupted then
      let (r, calls, rest) := writePhase rest
      (r, calls + 1, rest)
    else (.error f, 1, rest)

/-- The flush phase: how the channel answers, and the answers that are left. -/
def flushPhase : List (Option Fault) → Except Fault Unit × List (Option Fault)
  | [] => (.ok (), [])
  | none :: rest => (.ok (), rest)
  | some f :: rest => (.error f, rest)

/-- Write one byte and flush it. -/
def emit (b : UInt8) (d : Writer) : Except Fault Unit × Writer :=
  match writePhase d.writes with
  | (.error f, calls, writes) => (.error f, { d with writes, writeCalls := d.writeCalls + calls })
  | (.ok (), calls, writes) =>
    let (r, flushes) := flushPhase d.flushes
    (r,
      { writes, flushes, bytes := d.bytes.push b, writeCalls := d.writeCalls + calls,
        flushCalls := d.flushCalls + 1 })

instance : OutputDevice Writer where
  emit := emit
  accepted d := d.bytes

/-- A writer shown by the bytes it has accepted. -/
def describe (d : Writer) : String :=
  "WriteSink \x7b inner: [" ++ ", ".intercalate (d.bytes.toList.map (·.toNat.repr)) ++ "] \x7d"

end Writer

end Brainfuck
