/-!
# Faults of devices

A device that cannot do what it is asked answers with a fault: what kind of thing went wrong, and a
text that says it to a reader. Only one kind changes what a device's user does next. An
*interrupted* operation has done nothing and is tried again where that is possible.
-/

namespace Brainfuck

/-- What kind of thing went wrong at a device. -/
inductive FaultKind where
  | other
  | brokenPipe
  | unexpectedEnd
  | wouldBlock
  | timedOut
  | interrupted
  | writeZero
  | permissionDenied
  | notFound
  | isDirectory
  | storageFull
deriving DecidableEq, Repr

/-- The text of a fault about which nothing is known but its kind. -/
def FaultKind.description : FaultKind → String
  | other => "other error"
  | brokenPipe => "broken pipe"
  | unexpectedEnd => "unexpected end of file"
  | wouldBlock => "operation would block"
  | timedOut => "timed out"
  | interrupted => "operation interrupted"
  | writeZero => "write zero"
  | permissionDenied => "permission denied"
  | notFound => "entity not found"
  | isDirectory => "is a directory"
  | storageFull => "no storage space"

/-- A failure of a device. -/
structure Fault where
  /-- What kind of thing went wrong. -/
  kind : FaultKind
  /-- What is said about it. -/
  text : String
deriving DecidableEq, Repr

/-- The fault of a given kind about which nothing else is known. -/
def FaultKind.fault (k : FaultKind) : Fault := ⟨k, k.description⟩

end Brainfuck
