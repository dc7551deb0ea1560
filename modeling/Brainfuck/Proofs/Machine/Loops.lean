import Brainfuck.Proofs.Machine.Jumps
import Brainfuck.Proofs.Machine.Steps
import Brainfuck.Proofs.Program.Nesting
import Mathlib.Order.Interval.Set.Defs

/-!
# Entering and leaving a loop

Jumps can go anywhere in a program, and a program whose brackets do not match has brackets that
belong to no loop. Still a loop has one way in and one way out. Control comes to its body from its
`[` only, on a cell that is not `0`, and control that is in the loop leaves it for the symbol behind
its `]` only, on a cell that is `0`.

## Why no other jump interferes

A jump goes from one end of a loop to behind the other. Two loops that have a symbol in common are
nested, so the jumps of an inner loop stay inside the outer one, and the jumps of an outer loop, or
of one elsewhere, do not land inside. What is left are the two brackets of the loop itself and the
steps from a symbol to the next.
-/

namespace Brainfuck.Machine

variable {ω ι : Type} {m : Machine ω ι} {i j next : Nat}

theorem target_enters (hloop : m.program.IsLoop i j) (htarget : m.target = .ok next)
    (hout : m.ip ∉ Set.Icc (i + 1) j) (hin : next ∈ Set.Icc (i + 1) j) :
    m.ip = i ∧ next = i + 1 ∧ m.cell ≠ 0 := by
  rw [Set.mem_Icc] at hout hin
  obtain ⟨-, ⟨rfl, hstart, -⟩ | ⟨-, -, l, rfl, hskip⟩ | ⟨-, -, k, rfl, hrepeat⟩⟩ :=
    target_eq_ok htarget
  · obtain rfl : m.ip = i := by omega
    exact ⟨rfl, rfl, hstart hloop.start⟩
  · -- a loop is skipped whose end lies inside, so all of it does
    exfalso
    have hil : i ≠ l := by
      rintro rfl
      have hboth := hloop.start.symm.trans hskip.stop
      cases hboth
    have hstart := hloop.lt_start hskip (by omega) (by omega)
    have := hskip.lt
    omega
  · exfalso
    by_cases hik : i = k
    · subst hik
      have := hloop.end_unique hrepeat
      have := hloop.lt
      omega
    · have hend := hloop.end_lt hrepeat (by omega) (by omega)
      have := hrepeat.lt
      omega

theorem target_leaves (hloop : m.program.IsLoop i j) (htarget : m.target = .ok next)
    (hin : m.ip ∈ Set.Icc i j) (hout : next ∉ Set.Icc i j) :
    next = j + 1 ∧ m.cell = 0 ∧ (m.command? = some .loopStart ∨ m.command? = some .loopEnd) := by
  rw [Set.mem_Icc] at hin hout
  obtain ⟨-, ⟨rfl, -, hend⟩ | ⟨hstart, hcell, l, rfl, hskip⟩ | ⟨-, -, k, rfl, hrepeat⟩⟩ :=
    target_eq_ok htarget
  · have hip : m.ip = j := by omega
    have hstop : m.command? = some .loopEnd := by
      rw [command?, hip]
      exact hloop.stop
    exact ⟨by rw [hip], hend hstop, Or.inr hstop⟩
  · by_cases hip : i = m.ip
    · -- the loop itself is skipped
      rw [hip] at hloop
      rw [hloop.end_unique hskip]
      exact ⟨rfl, hcell, Or.inl hstart⟩
    · have hend := hloop.end_lt hskip (by omega) hin.2
      have := hskip.lt
      omega
  · exfalso
    by_cases hip : m.ip = j
    · rw [hip] at hrepeat
      have := hloop.start_unique hrepeat
      have := hloop.lt
      omega
    · have hi : i ≠ m.ip := by
        intro hi
        have hboth := hloop.start.symm.trans (hi ▸ hrepeat.stop)
        cases hboth
      have hstart := hloop.lt_start hrepeat (by omega) (by omega)
      have := hrepeat.lt
      omega

/-! ## Steps -/

variable [OutputDevice ω] [InputDevice ι]

/-- Brackets do nothing to the state. -/
theorem step_state_of_bracket (h : m.command? = some .loopStart ∨ m.command? = some .loopEnd) :
    m.step.2.state = m.state := by
  cases htarget : m.target with
  | error e => rw [step_of_target_error htarget]
  | ok next =>
    rw [step_of_target_ok htarget]
    rcases h with h | h
    · rw [h]
      rfl
    · rw [h]
      rfl

theorem step_enters (hloop : m.program.IsLoop i j) (hout : m.ip ∉ Set.Icc (i + 1) j)
    (hin : m.step.2.ip ∈ Set.Icc (i + 1) j) : m.ip = i ∧ m.step.2.ip = i + 1 ∧ m.cell ≠ 0 := by
  cases htarget : m.target with
  | error e =>
    rw [step_of_target_error htarget] at hin
    exact absurd hin hout
  | ok next =>
    rw [step_of_target_ok htarget] at hin ⊢
    exact target_enters hloop htarget hout hin

theorem step_leaves (hloop : m.program.IsLoop i j) (hin : m.ip ∈ Set.Icc i j)
    (hout : m.step.2.ip ∉ Set.Icc i j) : m.step.2.ip = j + 1 ∧ m.step.2.cell = 0 := by
  cases htarget : m.target with
  | error e =>
    rw [step_of_target_error htarget] at hout
    exact absurd hin hout
  | ok next =>
    have hip : m.step.2.ip = next := by rw [step_of_target_ok htarget]
    rw [hip] at hout
    obtain ⟨hnext, hcell, hbracket⟩ := target_leaves hloop htarget hin hout
    refine ⟨hip.trans hnext, ?_⟩
    rw [cell, step_state_of_bracket hbracket]
    exact hcell

/-! ## Runs -/

/-- Control that is in a loop at one time and outside at a later time has in between gone behind the
loop, on a cell that is `0`. -/
theorem exists_step_leaves {a b : Nat} (hloop : m.program.IsLoop i j) (hab : a ≤ b)
    (hin : (stepAll a m).2.ip ∈ Set.Icc i j) (hout : (stepAll b m).2.ip ∉ Set.Icc i j) :
    ∃ c, a ≤ c ∧ c < b ∧ (stepAll c m).2.ip ∈ Set.Icc i j ∧
      (stepAll (c + 1) m).2.ip = j + 1 ∧ (stepAll (c + 1) m).2.cell = 0 := by
  induction b, hab using Nat.le_induction with
  | base => exact absurd hin hout
  | succ b hab ih =>
    by_cases hb : (stepAll b m).2.ip ∈ Set.Icc i j
    · -- the last step is the one that leaves
      refine ⟨b, hab, Nat.lt_succ_self b, hb, ?_⟩
      rw [stepAll_succ_snd] at hout ⊢
      apply step_leaves _ hb hout
      rw [stepAll_program]
      exact hloop
    · obtain ⟨c, hac, hcb, hleaves⟩ := ih hb
      exact ⟨c, hac, Nat.lt_succ_of_lt hcb, hleaves⟩

/-- **A loop has one way in and one way out.** Let the `[` at index `i` have its partner at index
`j`, in any program. A step that comes to the symbols behind the `[`, up to the `]`, from elsewhere
is the step from the `[`, on a cell that is not `0`. A step that leaves the loop goes behind the
`]`, and the cell under the head is then `0`. So whenever a run leaves the loop it does so there, on
a cell that is `0`. -/
theorem loop_entered_at_start_left_on_zero {p : Program} (hi : p.commandAt i = some .loopStart)
    (hj : p.jumpForward i = .ok (j + 1)) (m : Machine ω ι) (hm : m.program = p) :
    (m.ip ∉ Set.Icc (i + 1) j → m.step.2.ip ∈ Set.Icc (i + 1) j →
      m.ip = i ∧ m.step.2.ip = i + 1 ∧ m.cell ≠ 0) ∧
      (m.ip ∈ Set.Icc i j → m.step.2.ip ∉ Set.Icc i j →
        m.step.2.ip = j + 1 ∧ m.step.2.cell = 0) ∧
      ∀ a b, a ≤ b → (stepAll a m).2.ip ∈ Set.Icc i j → (stepAll b m).2.ip ∉ Set.Icc i j →
        ∃ c, a ≤ c ∧ c < b ∧ (stepAll c m).2.ip ∈ Set.Icc i j ∧
          (stepAll (c + 1) m).2.ip = j + 1 ∧ (stepAll (c + 1) m).2.cell = 0 := by
  subst hm
  have hloop := (Program.jumpForward_eq_ok_iff hi).1 hj
  refine ⟨step_enters hloop, step_leaves hloop, ?_⟩
  intro a b hab hin hout
  exact exists_step_leaves hloop hab hin hout

/-- In `]+[-][` the loop in the middle is entered from its `[` after two steps and left after five,
between two brackets that have no partner. -/
theorem loop_entered_at_start_left_on_zero_surplus :
    let p := Program.ofString "]+[-]["
    let m : Machine Collector Queue := { program := p }
    let inner := (stepAll 2 m).2
    let last := (stepAll 4 m).2
    p.commandAt 2 = some .loopStart ∧ p.jumpForward 2 = .ok 5 ∧
      (inner.ip = 2 ∧ inner.step.2.ip = 3 ∧ inner.cell ≠ 0) ∧
      (last.step.2.ip = 5 ∧ last.step.2.cell = 0) ∧
      ∃ c, 3 ≤ c ∧ c < 5 ∧ (stepAll c m).2.ip ∈ Set.Icc 2 4 ∧
        (stepAll (c + 1) m).2.ip = 5 ∧ (stepAll (c + 1) m).2.cell = 0 := by
  intro p m inner last
  have hi : p.commandAt 2 = some .loopStart := by decide
  have hj : p.jumpForward 2 = .ok 5 := by rfl
  have hinner := loop_entered_at_start_left_on_zero hi hj inner (stepAll_program 2 m)
  have hlast := loop_entered_at_start_left_on_zero hi hj last (stepAll_program 4 m)
  have hruns := loop_entered_at_start_left_on_zero hi hj m rfl
  refine ⟨hi, hj, hinner.1 ?_ ?_, hlast.2.1 ?_ ?_, hruns.2.2 3 5 (by decide) ?_ ?_⟩
  all_goals
    rw [Set.mem_Icc]
    decide +kernel

end Brainfuck.Machine
