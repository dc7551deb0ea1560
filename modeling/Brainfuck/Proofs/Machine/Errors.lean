import Brainfuck.Proofs.Machine.Devices
import Brainfuck.Proofs.Machine.Jumps
import Brainfuck.Proofs.Program.Pairing

/-!
# When a step fails

Each error of a step has one cause, and each cause one error. Two of the causes are found out before
the symbol counts as executed: there is no symbol left, or control has nowhere to go. Then the step
leaves the machine as it was. The third is a device that fails while the symbol does its work, and
by then the machine has moved past the symbol.
-/

namespace Brainfuck.Machine

variable {ω ι : Type} {m : Machine ω ι} {e : RuntimeError} {i : Nat} {side : Bracket}

/-! ## Control -/

/-- The next symbol is a bracket without a partner, and the cell under the head asks for the jump
to the partner. -/
def IsStuck (m : Machine ω ι) : Bracket → Prop
  | .opening => m.command? = some .loopStart ∧ (∀ j, ¬ m.program.Paired m.ip j) ∧ m.cell = 0
  | .closing => m.command? = some .loopEnd ∧ (∀ j, ¬ m.program.Paired j m.ip) ∧ m.cell ≠ 0

theorem target_of_isStuck (h : m.IsStuck side) : m.target = .error (.unmatched m.ip side) := by
  cases side with
  | opening =>
    obtain ⟨hstart, hnone, hcell⟩ := h
    simp only [Program.paired_iff_isLoop] at hnone
    rw [target_of_start hstart, if_pos hcell]
    exact (Program.jumpForward_eq_error_iff hstart).2 hnone
  | closing =>
    obtain ⟨hend, hnone, hcell⟩ := h
    simp only [Program.paired_iff_isLoop] at hnone
    rw [target_of_end hend, if_neg hcell]
    exact (Program.jumpBackward_eq_error_iff hend).2 hnone

/-- Inside the program control has nowhere to go only if the machine is stuck at a bracket. -/
theorem isStuck_of_target_error (hip : m.ip < m.program.size) (h : m.target = .error e) :
    ∃ side, e = .unmatched m.ip side ∧ m.IsStuck side := by
  by_cases hstart : m.command? = some .loopStart
  · rw [target_of_start hstart] at h
    split at h
    · next hcell =>
      obtain rfl := Program.jumpForward_eq_error h
      have hnone := (Program.jumpForward_eq_error_iff hstart).1 h
      simp only [← Program.paired_iff_isLoop] at hnone
      exact ⟨.opening, rfl, hstart, hnone, hcell⟩
    · cases h
  · by_cases hend : m.command? = some .loopEnd
    · rw [target_of_end hend] at h
      split at h
      · cases h
      · next hcell =>
        obtain rfl := Program.jumpBackward_eq_error h
        have hnone := (Program.jumpBackward_eq_error_iff hend).1 h
        simp only [← Program.paired_iff_isLoop] at hnone
        exact ⟨.closing, rfl, hend, hnone, hcell⟩
    · rw [target_of_ne hip hstart hend] at h
      cases h

theorem target_eq_error_iff :
    m.target = .error e ↔
      (e = .terminated m.ip ∧ m.program.size ≤ m.ip) ∨
        ∃ side, e = .unmatched m.ip side ∧ m.IsStuck side := by
  constructor
  · intro h
    rcases Nat.lt_or_ge m.ip m.program.size with hip | hip
    · exact Or.inr (isStuck_of_target_error hip h)
    · rw [target_of_size_le hip] at h
      exact Or.inl ⟨(Except.error.inj h).symm, hip⟩
  · rintro (⟨rfl, hip⟩ | ⟨side, rfl, hstuck⟩)
    · exact target_of_size_le hip
    · exact target_of_isStuck hstuck

/-- From a symbol that uses a device control goes to the next one. -/
theorem target_of_device {op : Command} (hop : m.command? = some op)
    (h : op = .output ∨ op = .input) : m.target = .ok (m.ip + 1) := by
  have hip : m.ip < m.program.size := Program.lt_size_of_commandAt hop
  rcases h with rfl | rfl
  · exact target_of_ne hip (by rw [hop]; decide) (by rw [hop]; decide)
  · exact target_of_ne hip (by rw [hop]; decide) (by rw [hop]; decide)

/-! ## Steps -/

variable [OutputDevice ω] [InputDevice ι]

/-- The three ways in which a step fails. -/
theorem step_fst_eq_error_iff :
    m.step.1 = .error e ↔
      (e = .terminated m.ip ∧ m.program.size ≤ m.ip) ∨
        (∃ side, e = .unmatched m.ip side ∧ m.IsStuck side) ∨
          m.state.policy = .halt ∧ ∃ op f, m.command? = some op ∧ m.state.DeviceFails f op ∧
            e = .device m.ip op.toChar f := by
  rw [← or_assoc, ← target_eq_error_iff, ← State.exec_fst_eq_error_iff (i := m.ip)]
  cases htarget : m.target with
  | error e' =>
    -- control has nowhere to go, so no device is used that could fail
    have hworks : (m.state.exec m.ip m.command?).1 ≠ .error e := by
      intro hexec
      obtain ⟨-, op, f, hop, hfails, -⟩ := State.exec_fst_eq_error_iff.1 hexec
      rw [target_of_device hop hfails.output_or_input] at htarget
      cases htarget
    rw [step_of_target_error htarget, or_iff_left hworks, Except.error.injEq, Except.error.injEq]
  | ok next =>
    rw [step_of_target_ok htarget]
    exact (or_iff_right (by simp)).symm

theorem step_fst_eq_terminated_iff :
    m.step.1 = .error (.terminated i) ↔ i = m.ip ∧ m.program.size ≤ m.ip := by
  rw [step_fst_eq_error_iff]
  constructor
  · rintro (⟨hi, hip⟩ | ⟨side, hi, -⟩ | ⟨-, op, f, -, -, hi⟩)
    · exact ⟨RuntimeError.terminated.inj hi, hip⟩
    · cases hi
    · cases hi
  · rintro ⟨rfl, hip⟩
    exact Or.inl ⟨rfl, hip⟩

theorem step_fst_eq_unmatched_iff :
    m.step.1 = .error (.unmatched i side) ↔ i = m.ip ∧ m.IsStuck side := by
  rw [step_fst_eq_error_iff]
  constructor
  · rintro (⟨hi, -⟩ | ⟨side', hi, hstuck⟩ | ⟨-, op, f, -, -, hi⟩)
    · cases hi
    · obtain ⟨rfl, rfl⟩ := RuntimeError.unmatched.inj hi
      exact ⟨rfl, hstuck⟩
    · cases hi
  · rintro ⟨rfl, hstuck⟩
    exact Or.inr (Or.inl ⟨side, rfl, hstuck⟩)

theorem step_fst_eq_device_iff {c : Char} {f : Fault} :
    m.step.1 = .error (.device i c f) ↔
      i = m.ip ∧ m.state.policy = .halt ∧
        ∃ op, m.command? = some op ∧ c = op.toChar ∧ m.state.DeviceFails f op := by
  rw [step_fst_eq_error_iff]
  constructor
  · rintro (⟨hi, -⟩ | ⟨side, hi, -⟩ | ⟨hpolicy, op, f', hop, hfails, hi⟩)
    · cases hi
    · cases hi
    · obtain ⟨rfl, rfl, rfl⟩ := RuntimeError.device.inj hi
      exact ⟨rfl, hpolicy, op, hop, rfl, hfails⟩
  · rintro ⟨rfl, hpolicy, op, hop, rfl, hfails⟩
    exact Or.inr (Or.inr ⟨hpolicy, op, f, hop, hfails, rfl⟩)

/-- The output device is offered the cell under the head at each `.`, and left alone otherwise. -/
theorem step_output (m : Machine ω ι) :
    m.step.2.state.output =
      if m.command? = some .output then m.state.output.map fun d ↦ (OutputDevice.emit m.cell d).2
      else m.state.output := by
  cases htarget : m.target with
  | error e =>
    have hne : m.command? ≠ some .output := by
      intro hop
      rw [target_of_device hop (Or.inl rfl)] at htarget
      cases htarget
    rw [step_of_target_error htarget, if_neg hne]
  | ok next =>
    rw [step_of_target_ok htarget]
    exact State.exec_output m.state m.ip m.command?

/-- A step whose device fails under the policy to halt moves past the symbol and counts it and the
failure. Nothing else changes but the device. -/
theorem step_of_deviceFails {op : Command} {f : Fault} (hpolicy : m.state.policy = .halt)
    (hop : m.command? = some op) (h : m.state.DeviceFails f op) :
    m.step =
      (.error (.device m.ip op.toChar f),
        { m with
          ip := m.ip + 1
          steps := m.steps + 1
          state := (m.state.afterUse op).counted }) := by
  have hafter := (m.state.afterUse_policy op).trans hpolicy
  rw [step_of_target_ok (target_of_device hop h.output_or_input), hop, State.exec_of_deviceFails h,
    State.fail_of_halt hafter]

end Brainfuck.Machine
