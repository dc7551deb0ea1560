import Brainfuck.Device.Writer

/-!
# What output devices accept

An output device may accept a byte or not, whatever it answers, but it never accepts a byte that it
was not offered, and never gives one back. So the bytes that it has accepted are some of those that
it was offered, in the same order.
-/

namespace Brainfuck

/-- Output devices that accept the byte they are offered, or nothing. -/
class LawfulOutputDevice (ω : Type) [OutputDevice ω] : Prop where
  /-- Offering a byte adds this byte to the accepted ones, or leaves them as they are. -/
  accepted_emit : ∀ (b : UInt8) (d : ω),
    OutputDevice.accepted (OutputDevice.emit b d).2 = OutputDevice.accepted d ∨
      OutputDevice.accepted (OutputDevice.emit b d).2 = (OutputDevice.accepted d).push b

instance : LawfulOutputDevice Collector where
  accepted_emit _ _ := Or.inr rfl

instance : LawfulOutputDevice ScriptedOutput where
  accepted_emit b d := by
    obtain ⟨script, bytes⟩ := d
    cases script with
    | nil => exact Or.inr rfl
    | cons reply script =>
      cases reply with
      | some f => exact Or.inl rfl
      | none => exact Or.inr rfl

instance : LawfulOutputDevice Refusal where
  accepted_emit _ _ := Or.inl rfl

/-- A byte is accepted in the write phase, and what the flush phase answers does not change that. -/
instance : LawfulOutputDevice Writer where
  accepted_emit b d := by
    have hemit : OutputDevice.emit b d = Writer.emit b d := rfl
    rw [hemit, Writer.emit]
    split
    · exact Or.inl rfl
    · exact Or.inr rfl

instance {ω₁ ω₂ : Type} [OutputDevice ω₁] [OutputDevice ω₂] [LawfulOutputDevice ω₁]
    [LawfulOutputDevice ω₂] : LawfulOutputDevice (ω₁ ⊕ ω₂) where
  accepted_emit b d := by
    cases d with
    | inl d => exact LawfulOutputDevice.accepted_emit b d
    | inr d => exact LawfulOutputDevice.accepted_emit b d

end Brainfuck
