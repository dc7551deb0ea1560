import Brainfuck.Device.Feed

/-!
# The history of a feed

A feed forgets what has passed through it. Its history keeps a record: everything that the reader
has read, and every answer that the holder has got. The reader and the holder take turns in any
order, so a history grows by *moves* of either of them.

## The reader's moves

A read and the passing on of what it gave are one move, since nobody can see what was read before it
is passed on. When the reader has read its last it hangs up, and this is a move of its own: in
between, the holder may find the channel empty and still connected. A reader that has read its last
makes no more reads, and a move of it to do so changes nothing.
-/

namespace Brainfuck.Feed

/-- Something that happens at a feed. -/
inductive Move where
  /-- A read of the reader gives `r`, which is passed on. -/
  | read (r : ReadResult)
  /-- The reader hangs up, if it has read its last. -/
  | hangUp
  /-- The holder polls. -/
  | poll
  /-- The holder waits for something to arrive. -/
  | await

/-- A feed with a record of what has passed through it. -/
structure History where
  /-- The feed as it is now. -/
  feed : Feed := {}
  /-- The reader has read its last. -/
  finished : Bool := false
  /-- All bytes that the reader has read. -/
  bytes : List UInt8 := []
  /-- The fault that ended the reader, if one did. -/
  fault : Option Fault := none
  /-- All answers to polls. -/
  answers : List (Except Fault (Option UInt8)) := []

/-- The fault of a read or of an answer. -/
def faultOf {α : Type} : Except Fault α → Option Fault
  | .ok _ => none
  | .error e => some e

/-- The byte of an answer. -/
def byteOf : Except Fault (Option UInt8) → Option UInt8
  | .ok b => b
  | .error _ => none

/-- The faults on the channel, in the order in which they were sent. -/
def sentFaults (f : Feed) : List Fault := f.channel.filterMap faultOf

/-- The faults that wait to be reported, in order. -/
def waitingFaults (f : Feed) : List Fault := f.deferred.toList ++ f.sentFaults

namespace History

/-- The fault by which a read ends the reader. -/
def finalFault (r : ReadResult) : Option Fault := (faultOf r).filter fun e ↦ e.kind ≠ .interrupted

/-- One more move. -/
def after (h : History) : Move → History
  | .read r =>
    if h.finished then h
    else
      { h with
        feed := h.feed.pass r
        finished := h.feed.isLast r
        bytes := h.bytes ++ bytesOf r
        fault := finalFault r }
  | .hangUp => if h.finished then { h with feed := h.feed.hangUp } else h
  | .poll => { h with feed := h.feed.poll.2, answers := h.answers ++ [h.feed.poll.1] }
  | .await => { h with feed := h.feed.await }

/-- The history after some moves. -/
def afterAll (h : History) (moves : List Move) : History := moves.foldl after h

/-- The history of a new feed after some moves. -/
def ofMoves (moves : List Move) : History := afterAll {} moves

/-- The bytes that were handed out, in order. -/
def handedOut (h : History) : List UInt8 := h.answers.filterMap byteOf

/-- The faults that were handed out, in order. -/
def reported (h : History) : List Fault := h.answers.filterMap faultOf

@[simp] theorem ofMoves_nil : ofMoves [] = {} := rfl

@[simp] theorem afterAll_nil (h : History) : h.afterAll [] = h := rfl

@[simp] theorem afterAll_cons (h : History) (m : Move) (moves : List Move) :
    h.afterAll (m :: moves) = (h.after m).afterAll moves := rfl

theorem ofMoves_append (moves later : List Move) :
    ofMoves (moves ++ later) = (ofMoves moves).afterAll later :=
  List.foldl_append

end History

end Brainfuck.Feed
