import Brainfuck.Proofs.Machine.Failures
import Brainfuck.Proofs.Machine.Jumps
import Brainfuck.Proofs.Machine.Steps
import Brainfuck.Proofs.Program.Nesting

/-!
# Programs that cannot go wrong

A machine fails at an unmatched bracket only if the jump is needed, and whether it is depends on the
tape. A program on which this can happen under no circumstances is one with balanced brackets. For
these programs the end is the only thing that can stop a machine that reports the failures of its
devices.

## Progress and preservation

A machine is *safe* if it is on a program with balanced brackets, not behind its end, and reports
failures. A safe machine that has not come to its end makes a step that succeeds, and every step
from a safe machine leads to a safe machine. So much is enough for runs of any length, with any
devices.
-/

namespace Brainfuck.Machine

variable {ω ι : Type} {m : Machine ω ι}

/-- In a program with balanced brackets control always has somewhere to go. -/
theorem exists_target_eq_ok (hbalanced : m.program.Balanced) (hip : m.ip < m.program.size) :
    ∃ next, m.target = .ok next := by
  obtain ⟨hstarts, hends⟩ := Program.balanced_iff_isLoop.1 hbalanced
  by_cases hstart : m.command? = some .loopStart
  · obtain ⟨j, hloop⟩ := hstarts m.ip hstart
    rw [target_of_start hstart, (Program.jumpForward_eq_ok_iff hstart).2 hloop]
    by_cases hcell : m.cell = 0
    · exact ⟨j + 1, if_pos hcell⟩
    · exact ⟨m.ip + 1, if_neg hcell⟩
  · by_cases hend : m.command? = some .loopEnd
    · obtain ⟨i, hloop⟩ := hends m.ip hend
      rw [target_of_end hend, (Program.jumpBackward_eq_ok_iff hend).2 hloop]
      by_cases hcell : m.cell = 0
      · exact ⟨m.ip + 1, if_pos hcell⟩
      · exact ⟨i + 1, if_neg hcell⟩
    · exact ⟨m.ip + 1, target_of_ne hip hstart hend⟩

variable [OutputDevice ω] [InputDevice ι]

theorem step_ne_unmatched (hbalanced : m.program.Balanced) (i : Nat) (side : Bracket) :
    m.step.1 ≠ .error (.unmatched i side) := by
  intro h
  by_cases hip : m.ip < m.program.size
  · obtain ⟨next, htarget⟩ := exists_target_eq_ok hbalanced hip
    rw [step_of_target_ok htarget] at h
    -- what a symbol does can fail at a device only
    obtain ⟨-, op, f, -, -, he⟩ := State.exec_eq_error (Prod.ext h rfl)
    cases he
  · rw [step_of_target_error (target_of_size_le (Nat.not_lt.1 hip))] at h
    cases h

/-! ## Brackets without a partner -/

theorem step_of_unmatched_start (h : m.command? = some .loopStart) (hcell : m.cell = 0)
    (hnone : ¬ ∃ j, m.program.IsLoop m.ip j) : m.step = (.error (.unmatched m.ip .opening), m) := by
  apply step_of_target_error
  rw [target_of_start h, if_pos hcell]
  exact (Program.jumpForward_eq_error_iff h).2 (not_exists.1 hnone)

theorem step_of_unmatched_end (h : m.command? = some .loopEnd) (hcell : m.cell ≠ 0)
    (hnone : ¬ ∃ i, m.program.IsLoop i m.ip) : m.step = (.error (.unmatched m.ip .closing), m) := by
  apply step_of_target_error
  rw [target_of_end h, if_neg hcell]
  exact (Program.jumpBackward_eq_error_iff h).2 (not_exists.1 hnone)

/-! ## Safe machines -/

/-- A machine that reports failures, on a program with balanced brackets. -/
structure Safe (m : Machine ω ι) : Prop where
  /-- The brackets of the program are balanced. -/
  balanced : m.program.Balanced
  /-- Control is in the program, or at its end. -/
  le_size : m.ip ≤ m.program.size
  /-- Failures of devices are reported. -/
  policy : m.state.policy = .report

theorem step_policy (m : Machine ω ι) : m.step.2.state.policy = m.state.policy := by
  cases h : m.target with
  | error e => rw [step_of_target_error h]
  | ok next =>
    rw [step_of_target_ok h]
    exact State.exec_policy ..

theorem Safe.step (h : m.Safe) : m.step.2.Safe := by
  refine ⟨?_, step_le_size h.le_size, ?_⟩
  · rw [step_program]
    exact h.balanced
  · rw [step_policy]
    exact h.policy

theorem Safe.step_ok (h : m.Safe) (hm : m.terminated = false) : m.step.1 = .ok () := by
  have hip : m.ip < m.program.size := Nat.lt_of_le_of_ne h.le_size (of_decide_eq_false hm)
  obtain ⟨next, htarget⟩ := exists_target_eq_ok h.balanced hip
  rw [step_of_target_ok htarget]
  rcases hexec : m.state.exec m.ip m.command? with ⟨e | _, t⟩
  · obtain ⟨hhalt, -⟩ := State.exec_eq_error hexec
    rw [h.policy] at hhalt
    cases hhalt
  · rfl

/-- A run of a safe machine that has an answer has come to the end of the program. -/
theorem Safe.run_eq_none_or_ok (h : m.Safe) (fuel : Nat) :
    run fuel m = none ∨ ∃ m', run fuel m = some (.ok (), m') ∧ m'.terminated = true := by
  induction fuel generalizing m with
  | zero =>
    by_cases hm : m.terminated = true
    · exact Or.inr ⟨m, run_of_terminated hm 0, hm⟩
    · exact Or.inl (run_zero (Bool.of_not_eq_true hm))
  | succ fuel ih =>
    by_cases hm : m.terminated = true
    · exact Or.inr ⟨m, run_of_terminated hm _, hm⟩
    · have hstep : m.step = (.ok (), m.step.2) :=
        Prod.ext (h.step_ok (Bool.of_not_eq_true hm)) rfl
      rw [run_succ_of_ok hstep]
      exact ih h.step

/-! ## Balance and safety -/

/-- **Balanced programs cannot go wrong, and only they.** The brackets of a program are balanced if
and only if no step from anywhere in it, on any tape and at any cell, fails at an unmatched bracket.
A machine on such a program that reports the failures of its devices goes on from every state it
reaches until it comes to the end, so that a run of it ends well or not at all. -/
theorem balanced_iff_never_unmatched (p : Program) (s : State ω ι) (steps : Nat) :
    (p.Balanced ↔ ∀ ip, ip ≤ p.size → ∀ tape head i side,
        (step ⟨p, ip, steps, { s with tape, head }⟩).1 ≠ .error (.unmatched i side)) ∧
      (p.Balanced → s.policy = .report →
        (∀ n, (stepAll n ⟨p, 0, steps, s⟩).2.terminated = false →
          (stepAll n ⟨p, 0, steps, s⟩).2.step.1 = .ok ()) ∧
        ((∃ fuel m, run fuel ⟨p, 0, steps, s⟩ = some (.ok (), m) ∧ m.terminated = true) ∨
          ∀ fuel, run fuel ⟨p, 0, steps, s⟩ = none)) := by
  refine ⟨⟨?_, ?_⟩, ?_⟩
  · intro hbalanced ip _ tape head i side
    exact step_ne_unmatched hbalanced i side
  · intro hnever
    rw [Program.balanced_iff_isLoop]
    -- a bracket without a partner fails on a tape that calls for the jump
    constructor
    · intro i hi
      by_contra hnone
      have hip := Nat.le_of_lt (Program.lt_size_of_commandAt hi)
      let m : Machine ω ι := ⟨p, i, steps, { s with tape := .blank, head := 0 }⟩
      have hcell : m.cell = 0 := Tape.get_blank 0
      have hstep := step_of_unmatched_start (m := m) hi hcell hnone
      exact hnever i hip .blank 0 i .opening (Prod.mk.inj hstep).1
    · intro j hj
      by_contra hnone
      have hip := Nat.le_of_lt (Program.lt_size_of_commandAt hj)
      let m : Machine ω ι := ⟨p, j, steps, { s with tape := Tape.blank.set 0 1, head := 0 }⟩
      have hcell : m.cell = 1 := Tape.get_set_self .blank 0 1
      have hstep := step_of_unmatched_end (m := m) hj (by rw [hcell]; decide) hnone
      exact hnever j hip (Tape.blank.set 0 1) 0 j .closing (Prod.mk.inj hstep).1
  · intro hbalanced hpolicy
    have hsafe : Safe (⟨p, 0, steps, s⟩ : Machine ω ι) := ⟨hbalanced, Nat.zero_le _, hpolicy⟩
    constructor
    · intro n hn
      exact (stepAll_keeps (fun _ h ↦ h.step) hsafe n).step_ok hn
    · by_cases hanswer :
          ∃ fuel m, run fuel ⟨p, 0, steps, s⟩ = some (.ok (), m) ∧ m.terminated = true
      · exact Or.inl hanswer
      · refine Or.inr fun fuel ↦ ?_
        rcases hsafe.run_eq_none_or_ok fuel with hnone | hok
        · exact hnone
        · exact absurd ⟨fuel, hok⟩ hanswer

/-- On `,+[.-]` a machine whose devices fail all the time goes on behind each failure and comes to
the end of the program, while in `][` either bracket fails on some tape. -/
theorem balanced_iff_never_unmatched_failing :
    let p := Program.ofString ",+[.-]"
    let s : State Refusal ScriptedInput :=
      { output := some ⟨FaultKind.brokenPipe.fault⟩
        input := some ⟨[.error FaultKind.other.fault]⟩ }
    (p.Balanced ∧ s.policy = .report ∧ (stepAll 3 ⟨p, 0, 0, s⟩).2.step.1 = .ok () ∧
        ∃ fuel m, run fuel ⟨p, 0, 0, s⟩ = some (.ok (), m) ∧ m.terminated = true) ∧
      ¬ ∀ ip, ip ≤ 2 → ∀ tape head i side,
        (step ⟨Program.ofString "][", ip, 0, { s with tape, head }⟩).1 ≠
          .error (.unmatched i side) := by
  intro p s
  have hp : p.Balanced := by decide
  obtain ⟨-, hruns⟩ := balanced_iff_never_unmatched p s 0
  obtain ⟨hever, -⟩ := balanced_iff_never_unmatched (Program.ofString "][") s 0
  obtain ⟨hgoes, hends⟩ := hruns hp rfl
  refine ⟨⟨hp, rfl, hgoes 3 (by rfl), ?_⟩, fun hnever ↦ ?_⟩
  · rcases hends with hok | hforever
    · exact hok
    · have hrun : (run 6 ⟨p, 0, 0, s⟩).isSome := by decide +kernel
      rw [hforever] at hrun
      cases hrun
  · exact absurd (hever.2 hnever) (by decide)

end Brainfuck.Machine
