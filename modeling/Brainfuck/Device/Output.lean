import Brainfuck.Device.Fault

/-!
# Output devices

An output device takes bytes one at a time. It answers each of them, and it can be asked which
bytes it has accepted so far. The two are different questions: a device may accept a byte and still
report a fault, because it failed after the byte was on its way.

The devices here are a collector, which accepts everything; a scripted device, whose answers are
laid down beforehand; a refusal, which accepts nothing; and the choice between two devices.
-/

namespace Brainfuck

/-- Something bytes can be written to. -/
class OutputDevice (ω : Type) where
  /-- Offer one byte to the device. -/
  emit : UInt8 → ω → Except Fault Unit × ω
  /-- The bytes that the device has accepted so far. -/
  accepted : ω → Array UInt8

/-! ## Collectors -/

/-- An output device that keeps every byte. -/
structure Collector where
  /-- The bytes kept so far. -/
  bytes : Array UInt8 := #[]
deriving DecidableEq

/-- Keep one more byte. -/
def Collector.push (b : UInt8) (d : Collector) : Collector := ⟨d.bytes.push b⟩

instance : OutputDevice Collector where
  emit b d := (.ok (), d.push b)
  accepted d := d.bytes

@[simp] theorem Collector.emit_eq (b : UInt8) (d : Collector) :
    OutputDevice.emit b d = (.ok (), ⟨d.bytes.push b⟩) := rfl

@[simp] theorem Collector.accepted_eq (d : Collector) : OutputDevice.accepted d = d.bytes := rfl

/-! ## Scripted devices -/

/-- An output device whose answers are laid down: each byte takes the next entry of the script and
is refused if that is a fault. When the script has run out every byte is accepted. -/
structure ScriptedOutput where
  /-- The answers still to come. -/
  script : List (Option Fault)
  /-- The bytes accepted so far. -/
  bytes : Array UInt8 := #[]
deriving DecidableEq

namespace ScriptedOutput

/-- Answer one byte as the script says. -/
def emit (b : UInt8) : ScriptedOutput → Except Fault Unit × ScriptedOutput
  | ⟨some f :: script, bytes⟩ => (.error f, ⟨script, bytes⟩)
  | ⟨none :: script, bytes⟩ => (.ok (), ⟨script, bytes.push b⟩)
  | ⟨[], bytes⟩ => (.ok (), ⟨[], bytes.push b⟩)

instance : OutputDevice ScriptedOutput where
  emit := emit
  accepted d := d.bytes

end ScriptedOutput

/-! ## Refusals -/

/-- An output device that answers every byte with the same fault and accepts none. -/
structure Refusal where
  /-- The answer to every byte. -/
  fault : Fault
deriving DecidableEq

instance : OutputDevice Refusal where
  emit _ d := (.error d.fault, d)
  accepted _ := #[]

/-! ## Choices -/

/-- A choice of two output devices is an output device. -/
instance {ω₁ ω₂ : Type} [OutputDevice ω₁] [OutputDevice ω₂] : OutputDevice (ω₁ ⊕ ω₂) where
  emit b
    | .inl d => let (r, d) := OutputDevice.emit b d; (r, .inl d)
    | .inr d => let (r, d) := OutputDevice.emit b d; (r, .inr d)
  accepted
    | .inl d => OutputDevice.accepted d
    | .inr d => OutputDevice.accepted d

end Brainfuck
