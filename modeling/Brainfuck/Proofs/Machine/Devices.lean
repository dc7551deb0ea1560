import Brainfuck.Proofs.Machine.Failures

/-!
# What a symbol does to the devices

Each device belongs to one command: `.` uses the output device and `,` the input device, once, and
no other symbol looks at either. If the device fails, nothing but the device has changed by the time
the policy is asked. So a symbol gives an error exactly if its device is there and fails, and the
policy is to halt.
-/

namespace Brainfuck

/-- One use of a device, with the answer of the device. -/
inductive Use where
  /-- A byte is offered to the output device. -/
  | write (b : UInt8) (answer : Except Fault Unit)
  /-- The input device is polled. -/
  | poll (answer : Except Fault (Option UInt8))
deriving DecidableEq

namespace State

variable {ω ι : Type} {s : State ω ι}

/-! ## The use of a device -/

theorem fail_of_halt (h : s.policy = .halt) (e : RuntimeError) :
    s.fail e = (.error e, s.counted) := by
  have hfail := fail_halt s s.reports e
  rw [← h] at hfail
  exact hfail

/-- A failure touches neither the tape nor the devices. -/
theorem fail_snd (s : State ω ι) (e : RuntimeError) :
    (s.fail e).2.tape = s.tape ∧ (s.fail e).2.head = s.head ∧ (s.fail e).2.output = s.output ∧
      (s.fail e).2.input = s.input := by
  rw [fail]
  cases s.policy with
  | report => exact ⟨rfl, rfl, rfl, rfl⟩
  | halt => exact ⟨rfl, rfl, rfl, rfl⟩

/-- Writing uses the output device and touches nothing else. -/
theorem write_snd [OutputDevice ω] (s : State ω ι) (i : Nat) :
    (s.write i).2.tape = s.tape ∧ (s.write i).2.head = s.head ∧
      (s.write i).2.output = s.output.map (fun d ↦ (OutputDevice.emit s.cell d).2) ∧
        (s.write i).2.input = s.input := by
  cases hd : s.output with
  | none => simp only [write, hd, Option.map_none, and_self]
  | some d =>
    rcases hemit : OutputDevice.emit s.cell d with ⟨f | _, d'⟩
    · simp only [write, hd, hemit, Option.map_some]
      exact fail_snd _ _
    · simp only [write, hd, hemit, Option.map_some, and_self]

/-- Reading leaves the output device alone. -/
theorem read_output [InputDevice ι] (s : State ω ι) (i : Nat) :
    (s.read i).2.output = s.output := by
  cases hd : s.input with
  | none => simp only [read, hd]
  | some d =>
    rcases hpoll : InputDevice.poll d with ⟨f | b, d'⟩
    · simp only [read, hd, hpoll]
      exact (fail_snd _ _).2.2.1
    · simp only [read, hd, hpoll, store]

variable [OutputDevice ω] [InputDevice ι] {f : Fault} {op : Command} {i : Nat}
  {c : Option Command}

/-- The use of a device that a symbol makes, if it makes one. -/
def use? (s : State ω ι) : Option Command → Option Use
  | some .output => s.output.map fun d ↦ .write s.cell (OutputDevice.emit s.cell d).1
  | some .input => s.input.map fun d ↦ .poll (InputDevice.poll d).1
  | _ => none

/-- The output device is used by `.` only. -/
theorem exec_output (s : State ω ι) (i : Nat) (c : Option Command) :
    (s.exec i c).2.output =
      if c = some .output then s.output.map fun d ↦ (OutputDevice.emit s.cell d).2
      else s.output := by
  cases c with
  | none => rfl
  | some op =>
    cases op with
    | output => exact (write_snd s i).2.2.1
    | input => exact read_output s i
    | _ => rfl

/-! ## Devices that fail -/

/-- The device that a command uses is there, and answers with the fault `f`. -/
def DeviceFails (s : State ω ι) (f : Fault) : Command → Prop
  | .output => ∃ d, s.output = some d ∧ (OutputDevice.emit s.cell d).1 = .error f
  | .input => ∃ d, s.input = some d ∧ (InputDevice.poll d).1 = .error f
  | _ => False

/-- The state after the device that a command uses has been used, if it is there. -/
def afterUse (s : State ω ι) : Command → State ω ι
  | .output => { s with output := s.output.map fun d ↦ (OutputDevice.emit s.cell d).2 }
  | .input => { s with input := s.input.map fun d ↦ (InputDevice.poll d).2 }
  | _ => s

theorem afterUse_policy (s : State ω ι) (op : Command) : (s.afterUse op).policy = s.policy := by
  cases op with
  | _ => rfl

theorem DeviceFails.output_or_input (h : s.DeviceFails f op) : op = .output ∨ op = .input := by
  cases op with
  | output => exact Or.inl rfl
  | input => exact Or.inr rfl
  | _ => cases h

/-- A device that fails has been used, and the rest is left to the policy. -/
theorem exec_of_deviceFails (h : s.DeviceFails f op) (i : Nat) :
    s.exec i (some op) = (s.afterUse op).fail (.device i op.toChar f) := by
  rcases h.output_or_input with rfl | rfl
  · obtain ⟨d, hd, hfault⟩ := h
    rcases hemit : OutputDevice.emit s.cell d with ⟨r, d'⟩
    obtain rfl : r = .error f := by rwa [hemit] at hfault
    simp only [exec, write, afterUse, hd, hemit, Option.map_some]
  · obtain ⟨d, hd, hfault⟩ := h
    rcases hpoll : InputDevice.poll d with ⟨r, d'⟩
    obtain rfl : r = .error f := by rwa [hpoll] at hfault
    simp only [exec, read, afterUse, hd, hpoll, Option.map_some]

/-- A symbol whose device does not fail gives no error. -/
theorem exec_fst_of_not_deviceFails (h : ∀ op f, c = some op → ¬ s.DeviceFails f op) (i : Nat) :
    (s.exec i c).1 = .ok () := by
  rcases hexec : s.exec i c with ⟨e | _, t⟩
  · exfalso
    obtain ⟨-, op, -, rfl, rfl | rfl, -⟩ := exec_eq_error hexec
    · cases hd : s.output with
      | none => simp [exec, write, hd] at hexec
      | some d =>
        rcases hemit : OutputDevice.emit s.cell d with ⟨f | _, d'⟩
        · exact h .output f rfl ⟨d, hd, by rw [hemit]⟩
        · simp [exec, write, hd, hemit] at hexec
    · cases hd : s.input with
      | none => simp [exec, read, hd] at hexec
      | some d =>
        rcases hpoll : InputDevice.poll d with ⟨f | b, d'⟩
        · exact h .input f rfl ⟨d, hd, by rw [hpoll]⟩
        · simp [exec, read, hd, hpoll] at hexec
  · rfl

/-- A symbol gives an error exactly if its device fails and the policy is to halt. -/
theorem exec_fst_eq_error_iff {e : RuntimeError} :
    (s.exec i c).1 = .error e ↔
      s.policy = .halt ∧ ∃ op f, c = some op ∧ s.DeviceFails f op ∧ e = .device i op.toChar f := by
  constructor
  · intro h
    have hpolicy := (exec_eq_error (Prod.ext h rfl)).1
    refine ⟨hpolicy, ?_⟩
    by_contra hnone
    rw [exec_fst_of_not_deviceFails] at h
    · cases h
    · rintro op f rfl hfails
      rw [exec_of_deviceFails hfails, fail_of_halt ((s.afterUse_policy op).trans hpolicy)] at h
      exact hnone ⟨op, f, rfl, hfails, (Except.error.inj h).symm⟩
  · rintro ⟨hpolicy, op, f, rfl, hfails, rfl⟩
    rw [exec_of_deviceFails hfails, fail_of_halt ((s.afterUse_policy op).trans hpolicy)]

/-- Under the policy to report no symbol gives an error. -/
theorem exec_fst_of_report (h : s.policy = .report) (i : Nat) (c : Option Command) :
    (s.exec i c).1 = .ok () := by
  rcases hexec : s.exec i c with ⟨e | _, t⟩
  · rw [(exec_eq_error hexec).1] at h
    cases h
  · rfl

end State

end Brainfuck
