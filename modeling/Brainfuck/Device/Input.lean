import Brainfuck.Device.Fault

/-!
# Input devices

An input device is polled for bytes and never makes its user wait: a poll gives a byte, says that
none is ready, or fails. "None is ready" is not the end of anything. A device may have a byte again
later, and none of the devices here tells its user that it has come to an end.

The devices here are a queue; a channel, which is a queue with a sender that can hang up; a
scripted device, whose answers are laid down beforehand; and the choice between two devices.
-/

namespace Brainfuck

/-- Something bytes can be polled from. -/
class InputDevice (ι : Type) where
  /-- Ask for the next byte, if one is ready. -/
  poll : ι → Except Fault (Option UInt8) × ι

namespace InputDevice

variable {ι : Type} [InputDevice ι]

/-- The answers to `n` polls in a row, and the device after them. -/
def polls : Nat → ι → List (Except Fault (Option UInt8)) × ι
  | 0, d => ([], d)
  | n + 1, d =>
    let (r, d) := poll d
    let (rs, d) := polls n d
    (r :: rs, d)

@[simp] theorem polls_zero (d : ι) : polls 0 d = ([], d) := rfl

theorem polls_succ (n : Nat) (d : ι) :
    polls (n + 1) d = ((poll d).1 :: (polls n (poll d).2).1, (polls n (poll d).2).2) := rfl

@[simp] theorem length_polls (n : Nat) (d : ι) : (polls n d).1.length = n := by
  induction n generalizing d with
  | zero => rfl
  | succ n ih => simp [polls_succ, ih]

end InputDevice

/-! ## Queues -/

/-- An input device that hands out its bytes front to back. -/
structure Queue where
  /-- The bytes still to be handed out. -/
  bytes : List UInt8 := []
deriving DecidableEq

namespace Queue

/-- Add bytes at the back. -/
def append (q : Queue) (bs : List UInt8) : Queue := ⟨q.bytes ++ bs⟩

instance : InputDevice Queue where
  poll
    | ⟨[]⟩ => (.ok none, ⟨[]⟩)
    | ⟨b :: bs⟩ => (.ok (some b), ⟨bs⟩)

@[simp] theorem poll_nil : InputDevice.poll (⟨[]⟩ : Queue) = (.ok none, ⟨[]⟩) := rfl

@[simp] theorem poll_cons (b : UInt8) (bs : List UInt8) :
    InputDevice.poll (⟨b :: bs⟩ : Queue) = (.ok (some b), ⟨bs⟩) := rfl

end Queue

/-! ## Channels -/

/-- The receiving end of a channel of bytes. -/
structure Channel where
  /-- The bytes that were sent and not yet received. -/
  bytes : List UInt8 := []
  /-- The sender has not hung up. -/
  connected : Bool := true
deriving DecidableEq

namespace Channel

/-- Send bytes; after the sender has hung up nothing is sent. -/
def send (c : Channel) (bs : List UInt8) : Channel :=
  if c.connected then { c with bytes := c.bytes ++ bs } else c

/-- The sender hangs up. What was sent before can still be received. -/
def hangup (c : Channel) : Channel := { c with connected := false }

/-- A channel whose sender has hung up is polled like one that is empty. -/
instance : InputDevice Channel where
  poll
    | ⟨[], connected⟩ => (.ok none, ⟨[], connected⟩)
    | ⟨b :: bs, connected⟩ => (.ok (some b), ⟨bs, connected⟩)

@[simp] theorem poll_nil (connected : Bool) :
    InputDevice.poll (⟨[], connected⟩ : Channel) = (.ok none, ⟨[], connected⟩) := rfl

@[simp] theorem poll_cons (b : UInt8) (bs : List UInt8) (connected : Bool) :
    InputDevice.poll (⟨b :: bs, connected⟩ : Channel) = (.ok (some b), ⟨bs, connected⟩) := rfl

end Channel

/-! ## Scripted devices -/

/-- An input device whose answers are laid down: each poll takes the next one. When the script has
run out no byte is ever ready. -/
structure ScriptedInput where
  /-- The answers still to come. -/
  script : List (Except Fault (Option UInt8))

namespace ScriptedInput

instance : InputDevice ScriptedInput where
  poll
    | ⟨[]⟩ => (.ok none, ⟨[]⟩)
    | ⟨r :: script⟩ => (r, ⟨script⟩)

@[simp] theorem poll_nil : InputDevice.poll (⟨[]⟩ : ScriptedInput) = (.ok none, ⟨[]⟩) := rfl

@[simp] theorem poll_cons (r : Except Fault (Option UInt8))
    (script : List (Except Fault (Option UInt8))) :
    InputDevice.poll (⟨r :: script⟩ : ScriptedInput) = (r, ⟨script⟩) := rfl

end ScriptedInput

/-! ## Choices -/

/-- A choice of two input devices is an input device. -/
instance {ι₁ ι₂ : Type} [InputDevice ι₁] [InputDevice ι₂] : InputDevice (ι₁ ⊕ ι₂) where
  poll
    | .inl d => let (r, d) := InputDevice.poll d; (r, .inl d)
    | .inr d => let (r, d) := InputDevice.poll d; (r, .inr d)

end Brainfuck
