import Brainfuck.Machine.Basic
import Brainfuck.Proofs.Program.Height

/-!
# Jumps

A jump goes behind the other end of the loop that the bracket belongs to. It fails exactly if the
bracket belongs to no loop.
-/

namespace Brainfuck.Program

variable {p : Program} {i j k : Nat}

theorem jumpForward_eq_ok_iff (h : p.commandAt i = some .loopStart) :
    p.jumpForward i = .ok (j + 1) ↔ p.IsLoop i j := by
  rw [← closing?_eq_some_iff h, jumpForward]
  cases p.closing? i with
  | none => simp
  | some k => simp

theorem jumpForward_eq_error_iff (h : p.commandAt i = some .loopStart) :
    p.jumpForward i = .error (.unmatched i .opening) ↔ ∀ j, ¬ p.IsLoop i j := by
  rw [jumpForward]
  cases hc : p.closing? i with
  | none => simp [← closing?_eq_some_iff h, hc]
  | some k => simp [← closing?_eq_some_iff h, hc]

theorem exists_of_jumpForward_ok (h : p.jumpForward i = .ok k) : ∃ j, k = j + 1 := by
  rw [jumpForward] at h
  split at h
  · next j _ => exact ⟨j, (Except.ok.inj h).symm⟩
  · cases h

/-- A jump from a `[` has one way to fail. -/
theorem jumpForward_eq_error {e : RuntimeError} (h : p.jumpForward i = .error e) :
    e = .unmatched i .opening := by
  rw [jumpForward] at h
  split at h
  · cases h
  · exact (Except.error.inj h).symm

theorem jumpBackward_eq_ok_iff (h : p.commandAt j = some .loopEnd) :
    p.jumpBackward j = .ok (i + 1) ↔ p.IsLoop i j := by
  rw [← opening?_eq_some_iff h, jumpBackward]
  cases p.opening? j with
  | none => simp
  | some k => simp

theorem jumpBackward_eq_error_iff (h : p.commandAt j = some .loopEnd) :
    p.jumpBackward j = .error (.unmatched j .closing) ↔ ∀ i, ¬ p.IsLoop i j := by
  rw [jumpBackward]
  cases hc : p.opening? j with
  | none => simp [← opening?_eq_some_iff h, hc]
  | some k => simp [← opening?_eq_some_iff h, hc]

theorem exists_of_jumpBackward_ok (h : p.jumpBackward j = .ok k) : ∃ i, k = i + 1 := by
  rw [jumpBackward] at h
  split at h
  · next i _ => exact ⟨i, (Except.ok.inj h).symm⟩
  · cases h

/-- A jump from a `]` has one way to fail. -/
theorem jumpBackward_eq_error {e : RuntimeError} (h : p.jumpBackward j = .error e) :
    e = .unmatched j .closing := by
  rw [jumpBackward] at h
  split at h
  · cases h
  · exact (Except.error.inj h).symm

end Brainfuck.Program

namespace Brainfuck.Machine

variable {ω ι : Type} {m : Machine ω ι}

/-- Control has nowhere to go only at the end of the program, or at a bracket without a partner. -/
theorem target_eq_error {e : RuntimeError} (h : m.target = .error e) :
    e = .terminated m.ip ∨ ∃ side, e = .unmatched m.ip side := by
  rcases Nat.lt_or_ge m.ip m.program.size with hip | hip
  · by_cases hstart : m.command? = some .loopStart
    · rw [target_of_start hstart] at h
      split at h
      · exact Or.inr ⟨.opening, Program.jumpForward_eq_error h⟩
      · cases h
    · by_cases hend : m.command? = some .loopEnd
      · rw [target_of_end hend] at h
        split at h
        · cases h
        · exact Or.inr ⟨.closing, Program.jumpBackward_eq_error h⟩
      · rw [target_of_ne hip hstart hend] at h
        cases h
  · rw [target_of_size_le hip] at h
    exact Or.inl (Except.error.inj h).symm

/-- Control goes to the next symbol, unless a bracket makes a jump, and then behind the other end of
its loop. -/
theorem target_eq_ok {next : Nat} (h : m.target = .ok next) :
    m.ip < m.program.size ∧
      (next = m.ip + 1 ∧ (m.command? = some .loopStart → m.cell ≠ 0) ∧
          (m.command? = some .loopEnd → m.cell = 0) ∨
        m.command? = some .loopStart ∧ m.cell = 0 ∧
          (∃ j, next = j + 1 ∧ m.program.IsLoop m.ip j) ∨
        m.command? = some .loopEnd ∧ m.cell ≠ 0 ∧
          ∃ i, next = i + 1 ∧ m.program.IsLoop i m.ip) := by
  have hip : m.ip < m.program.size := by
    by_contra hip
    rw [target_of_size_le (Nat.not_lt.1 hip)] at h
    cases h
  refine ⟨hip, ?_⟩
  by_cases hstart : m.command? = some .loopStart
  · have hend : m.command? ≠ some .loopEnd := by
      rw [hstart]
      decide
    rw [target_of_start hstart] at h
    by_cases hcell : m.cell = 0
    · rw [if_pos hcell] at h
      obtain ⟨j, rfl⟩ := Program.exists_of_jumpForward_ok h
      exact Or.inr (Or.inl ⟨hstart, hcell, j, rfl, (Program.jumpForward_eq_ok_iff hstart).1 h⟩)
    · rw [if_neg hcell] at h
      exact Or.inl ⟨(Except.ok.inj h).symm, fun _ ↦ hcell, fun h ↦ absurd h hend⟩
  · by_cases hend : m.command? = some .loopEnd
    · rw [target_of_end hend] at h
      by_cases hcell : m.cell = 0
      · rw [if_pos hcell] at h
        exact Or.inl ⟨(Except.ok.inj h).symm, fun h ↦ absurd h hstart, fun _ ↦ hcell⟩
      · rw [if_neg hcell] at h
        obtain ⟨i, rfl⟩ := Program.exists_of_jumpBackward_ok h
        exact Or.inr (Or.inr ⟨hend, hcell, i, rfl, (Program.jumpBackward_eq_ok_iff hend).1 h⟩)
    · rw [target_of_ne hip hstart hend] at h
      exact Or.inl ⟨(Except.ok.inj h).symm, fun h ↦ absurd h hstart, fun h ↦ absurd h hend⟩

/-- Control never goes further than to the end of the program. -/
theorem target_le_size {next : Nat} (h : m.target = .ok next) : next ≤ m.program.size := by
  obtain ⟨hip, ⟨rfl, -⟩ | ⟨-, -, j, rfl, hloop⟩ | ⟨-, -, i, rfl, hloop⟩⟩ := target_eq_ok h
  · exact hip
  · exact hloop.lt_size
  · have := hloop.lt
    omega

theorem step_le_size [OutputDevice ω] [InputDevice ι] (h : m.ip ≤ m.program.size) :
    m.step.2.ip ≤ m.step.2.program.size := by
  rw [step_program]
  cases htarget : m.target with
  | error e =>
    rw [step_of_target_error htarget]
    exact h
  | ok next =>
    rw [step_of_target_ok htarget]
    exact target_le_size htarget

end Brainfuck.Machine
