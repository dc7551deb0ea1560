import Brainfuck.Device.Input

/-!
# Background feeds

A feed lets a program poll a reader that blocks. A background reader reads one chunk after another
and sends each over a channel; the holder of the feed takes from the channel what has arrived.

## The reader

Each read gives some bytes, ends the input by giving none, or fails. An interrupted read is simply
repeated. Any other fault is sent over the channel like a chunk and ends the reader, as does the end
of the input. The reader also ends when it has something to send and nobody holds the feed.

## The holder

Bytes and the final fault wait in one of three places before they reach the holder: in the channel,
in `pending` (the rest of the chunk that was opened last), or in `deferred` (a fault that was taken
off the channel by waiting for input instead of polling). A poll looks at them in the order in which
they were read, so a fault comes after all bytes that were read before it, and it comes once. Once
the feed is `done` nothing is left anywhere, and no poll ever gives a byte again.
-/

namespace Brainfuck

/-- What one read of a blocking reader gives: some bytes, none at the end of the input, or a
fault. -/
abbrev ReadResult := Except Fault (List UInt8)

/-- A reader in the background, the channel it sends to, and what its holder has taken from it. -/
structure Feed where
  /-- The reader has not ended: it is waiting in its next read. -/
  reading : Bool := true
  /-- Somebody still holds the feed. -/
  held : Bool := true
  /-- What the reader has sent and the holder has not taken. -/
  channel : List ReadResult := []
  /-- The rest of the chunk that was taken last. -/
  pending : List UInt8 := []
  /-- A fault that was taken off the channel and not yet reported. -/
  deferred : Option Fault := none
  /-- Everything that the reader sent has been handed out, and the reader has ended. -/
  done : Bool := false

namespace Feed

/-! ## The reader's side -/

/-- The most bytes that one read gives. -/
def chunkSize : Nat := 4096

/-- The reader sends over the channel, if somebody holds the feed. -/
def send (f : Feed) (r : ReadResult) : Feed :=
  if f.held then { f with channel := f.channel ++ [r] } else f

/-- The reader passes on what a read has given. The end of the input is not passed on, and neither
is an interruption. -/
def pass (f : Feed) : ReadResult → Feed
  | .ok [] => f
  | .ok bytes => f.send (.ok bytes)
  | .error e => if e.kind = .interrupted then f else f.send (.error e)

/-- Whether a read that gives `r` is the reader's last. -/
def isLast (f : Feed) : ReadResult → Bool
  | .ok [] => true
  | .ok _ => !f.held
  | .error e => e.kind ≠ .interrupted

/-- The reader ends, and with it its side of the channel. -/
def hangUp (f : Feed) : Feed := { f with reading := false }

/-- One read of the reader gives `r`, and the reader deals with it. -/
def receive (f : Feed) (r : ReadResult) : Feed :=
  if f.reading then
    if f.isLast r then (f.pass r).hangUp else f.pass r
  else f

/-- Cut bytes into chunks that one read can give, the last perhaps shorter. -/
def chunks (bytes : List UInt8) : List (List UInt8) :=
  if bytes = [] then [] else bytes.take chunkSize :: chunks (bytes.drop chunkSize)
termination_by bytes.length
decreasing_by
  have : 0 < bytes.length := List.length_pos_iff.2 ‹_›
  simp only [List.length_drop, chunkSize]
  omega

/-- Something arrives at the reader: bytes, which it reads chunk by chunk, the end of the input,
or a fault. -/
def deliver (f : Feed) : ReadResult → Feed
  | .ok [] => f.receive (.ok [])
  | .ok bytes => (chunks bytes).foldl (fun f chunk ↦ f.receive (.ok chunk)) f
  | .error e => f.receive (.error e)

/-! ## The holder's side -/

/-- Hand out the next byte or the final fault, if it has arrived. -/
def poll (f : Feed) : Except Fault (Option UInt8) × Feed :=
  match f.pending with
  | b :: rest => (.ok (some b), { f with pending := rest })
  | [] =>
    match f.deferred with
    | some e => (.error e, { f with deferred := none, done := true })
    | none =>
      if f.done then (.ok none, f)
      else
        match f.channel with
        | .ok chunk :: rest => (.ok chunk.head?, { f with channel := rest, pending := chunk.tail })
        | .error e :: rest => (.error e, { f with channel := rest, done := true })
        | [] => (.ok none, { f with done := !f.reading })

instance : InputDevice Feed := ⟨poll⟩

/-- Wait for something to arrive: take one thing off the channel unless something taken before is
still to be handed out. Waiting ends without result if the channel stays empty. -/
def await (f : Feed) : Feed :=
  if f.pending = [] ∧ f.done = false ∧ f.deferred = none then
    match f.channel with
    | .ok chunk :: rest => { f with channel := rest, pending := chunk }
    | .error e :: rest => { f with channel := rest, deferred := some e }
    | [] => { f with done := !f.reading }
  else f

/-- A byte can be handed out at once. -/
def ready (f : Feed) : Bool := !f.pending.isEmpty

/-- Nobody holds the feed any more. -/
def release (f : Feed) : Feed := { f with held := false, channel := [] }

/-- The bytes of a read. -/
def bytesOf : ReadResult → List UInt8
  | .ok bytes => bytes
  | .error _ => []

/-- The bytes on the channel, in the order in which they were sent. -/
def sentBytes (f : Feed) : List UInt8 := f.channel.flatMap bytesOf

/-- The bytes that wait to be handed out, in order. -/
def waitingBytes (f : Feed) : List UInt8 := f.pending ++ f.sentBytes

/-- How many bytes have arrived and not been handed out. -/
def backlog (f : Feed) : Nat := f.waitingBytes.length

/-- Poll until something other than a byte comes, for `fuel` polls at most: the bytes behind those
in `bytes`, how it ended, and the feed after it. -/
def drainFor : (fuel : Nat) → (bytes : Array UInt8) → Feed → Array UInt8 × Except Fault Unit × Feed
  | 0, bytes, f => (bytes, .ok (), f)
  | fuel + 1, bytes, f =>
    match f.poll with
    | (.ok (some b), f) => drainFor fuel (bytes.push b) f
    | (.ok none, f) => (bytes, .ok (), f)
    | (.error e, f) => (bytes, .error e, f)

/-- Poll until something other than a byte comes. One poll more than there are bytes is enough. -/
def drain (f : Feed) : Array UInt8 × Except Fault Unit × Feed := f.drainFor (f.backlog + 1) #[]

end Feed

end Brainfuck
