import Brainfuck.Proofs.Machine.Policies
import Brainfuck.Proofs.Machine.Relocation
import Brainfuck.Proofs.Program.Comments

/-!
# Comments do nothing

A machine on a program and a machine on the program without its comments do the same, but for the
steps that the first spends on comments. Every command can be relocated to its place among the
commands, with its loop, so a step of the one at a command is a step of the other. A step of the
first at a comment is no step of the other at all.

## Stuttering

The second machine is what the first is without comments: `withoutComments` replaces its program and
its indexes, and takes off the steps that were spent on comments. The number of these has to be
carried along, for a machine does not tell how many of its steps they were. In the one direction any
number of steps of the first machine is followed by as many steps of the second as were spent on
commands. In the other direction a step of the second machine is followed by some steps over
comments, which come to an end because each of them brings the end of the program nearer, and one
step at a command.
-/

namespace Brainfuck

theorem deviceError?_mapError (f : Nat → Nat) (r : Except RuntimeError Unit) :
    deviceError? (r.mapError (RuntimeError.relocate f)) =
      (deviceError? r).map (RuntimeError.relocate f) := by
  cases r with
  | ok => rfl
  | error e =>
    cases e with
    | terminated ip => rfl
    | unmatched ip side => rfl
    | device ip op fault => rfl

namespace Machine

variable {ω ι : Type} {m m' : Machine ω ι} {skipped : Nat}

/-- Whether the next step executes a command. -/
def executesCommand (m : Machine ω ι) : Bool := m.command?.isSome && m.executes

/-- Whether the next step executes a comment. -/
def executesComment (m : Machine ω ι) : Bool := m.command?.isNone && m.executes

/-- The machine on its program without comments: every index is replaced by the number of commands
in front of it, and `skipped` steps are not counted. -/
def withoutComments (m : Machine ω ι) (skipped : Nat) : Machine ω ι where
  program := m.program.withoutComments
  ip := m.program.commandsBefore m.ip
  steps := m.steps - skipped
  state :=
    { m.state with
      reports := m.state.reports.map (RuntimeError.relocate m.program.commandsBefore) }

theorem withoutComments_eq_relocate (m : Machine ω ι) (skipped : Nat) :
    m.withoutComments skipped =
      m.relocate m.program.withoutComments m.program.commandsBefore skipped #[] := by
  rw [relocate, State.relocate, Array.empty_append]
  rfl

theorem executesComment_eq_true_iff :
    m.executesComment = true ↔ m.command? = none ∧ m.ip < m.program.size := by
  rw [executesComment, Bool.and_eq_true, Option.isNone_iff_eq_none]
  refine and_congr_right fun hnone ↦ ?_
  constructor
  · intro h
    rw [executes] at h
    cases htarget : m.target with
    | error e =>
      rw [htarget] at h
      cases h
    | ok next => exact (target_eq_ok htarget).1
  · intro hip
    rw [executes, target_of_ne hip (by rw [hnone]; decide) (by rw [hnone]; decide)]
    rfl

/-- The next step executes a comment, or a command, or control has nowhere to go. -/
theorem executes_cases (m : Machine ω ι) :
    (m.executesComment = true ∧ m.executesCommand = false) ∨
      (m.executesComment = false ∧ m.executesCommand = true) ∨
      (m.executesComment = false ∧ m.executesCommand = false ∧ ∃ e, m.target = .error e) := by
  rw [executesComment, executesCommand, executes]
  cases m.target with
  | error e => exact Or.inr (Or.inr ⟨Bool.and_false _, Bool.and_false _, e, rfl⟩)
  | ok next =>
    cases m.command? with
    | none => exact Or.inl ⟨rfl, rfl⟩
    | some op => exact Or.inr (Or.inl ⟨rfl, rfl⟩)

/-- What is kept along a run: control is in the program or at its end, and no more steps are skipped
than have been counted. -/
structure Skips (skipped : Nat) (m : Machine ω ι) : Prop where
  le_size : m.ip ≤ m.program.size
  le_steps : skipped ≤ m.steps

theorem skips_zero (hip : m.ip ≤ m.program.size) : Skips 0 m := ⟨hip, Nat.zero_le m.steps⟩

/-- Everything but a comment can be relocated. -/
theorem relocates_withoutComments (hnone : m.executesComment = false) :
    m.program.Relocates m.program.withoutComments m.program.commandsBefore m.ip := by
  apply m.program.collapses_withoutComments.relocates
  intro hip
  apply Program.commandsBefore_succ_of_command
  by_contra hcommand
  rw [executesComment_eq_true_iff.2 ⟨Option.not_isSome_iff_eq_none.1 hcommand, hip⟩] at hnone
  cases hnone

theorem Skips.terminated (h : Skips skipped m) (hnone : m.executesComment = false) :
    (m.withoutComments skipped).terminated = m.terminated := by
  have hiff := (relocates_withoutComments hnone).lt_size_iff
  have hip := h.le_size
  have hle := Program.commandsBefore_le (p := m.program) hip
  rw [Program.commandsBefore_size] at hle
  apply decide_eq_decide.2
  change m.program.commandsBefore m.ip = m.program.withoutComments.size ↔ m.ip = m.program.size
  omega

variable [OutputDevice ω] [InputDevice ι]

/-! ## One step -/

theorem step_of_comment (h : m.executesComment = true) :
    m.step = (.ok (), { m with ip := m.ip + 1, steps := m.steps + 1 }) := by
  obtain ⟨hnone, hip⟩ := executesComment_eq_true_iff.1 h
  have htarget := target_of_ne hip (by rw [hnone]; decide) (by rw [hnone]; decide)
  rw [step_of_target_ok htarget, hnone]
  rfl

/-- A step that fails is not at a comment. -/
theorem executesComment_eq_false_of_error {e : RuntimeError} (h : m.step = (.error e, m')) :
    m.executesComment = false := by
  by_contra hcomment
  rw [step_of_comment (Bool.of_not_eq_false hcomment)] at h
  cases h

/-- A step at a comment changes nothing but the number of comments. -/
theorem withoutComments_step_of_comment (h : m.executesComment = true) (skipped : Nat) :
    m.step.2.withoutComments (skipped + 1) = m.withoutComments skipped := by
  have hip := Program.commandsBefore_succ_of_comment (executesComment_eq_true_iff.1 h).1
  rw [step_of_comment h]
  simp only [withoutComments, hip, Nat.add_sub_add_right]

/-- A step at anything but a comment is a step without the comments. -/
theorem step_withoutComments (h : Skips skipped m) (hnone : m.executesComment = false) :
    (m.withoutComments skipped).step =
      m.step.map (Except.mapError (RuntimeError.relocate m.program.commandsBefore))
        (withoutComments · skipped) := by
  have hstep := step_relocate (relocates_withoutComments hnone) h.le_steps #[]
  rw [withoutComments_eq_relocate, hstep]
  apply Prod.ext
  · rfl
  · simp only [Prod.map_snd, withoutComments_eq_relocate, step_program]

theorem Skips.step (h : Skips skipped m) : Skips skipped m.step.2 := by
  refine ⟨step_le_size h.le_size, ?_⟩
  rw [step_steps]
  exact Nat.le_trans h.le_steps (Nat.le_add_right _ _)

theorem Skips.step_comment (h : Skips skipped m) (hcomment : m.executesComment = true) :
    Skips (skipped + 1) m.step.2 := by
  refine ⟨step_le_size h.le_size, ?_⟩
  rw [step_of_comment hcomment]
  exact Nat.succ_le_succ h.le_steps

/-! ## Many steps -/

/-- Every step that counts executes a command or a comment. -/
theorem countSteps_executes (n : Nat) (m : Machine ω ι) :
    countSteps executes n m = countSteps executesCommand n m + countSteps executesComment n m := by
  induction n generalizing m with
  | zero => rfl
  | succ n ih =>
    have hfirst : (if m.executes then 1 else 0) =
        (if m.executesCommand then 1 else 0) + if m.executesComment then 1 else 0 := by
      rw [executesCommand, executesComment, ← Option.not_isSome]
      cases m.command?.isSome with
      | false => simp
      | true => simp
    rw [countSteps_succ, countSteps_succ, countSteps_succ, ih, hfirst]
    omega

theorem Skips.stepAll (h : Skips skipped m) (n : Nat) :
    Skips (skipped + countSteps executesComment n m) (stepAll n m).2 := by
  refine ⟨?_, ?_⟩
  · exact stepAll_le_size h.le_size n
  · rw [stepAll_steps, countSteps_executes]
    have := h.le_steps
    omega

/-- Steps of a machine are followed by as many steps without the comments as were spent on commands,
and the devices that fail are the same. -/
theorem stepAll_withoutComments (n : Nat) (h : Skips skipped m) :
    let bare := stepAll (countSteps executesCommand n m) (m.withoutComments skipped)
    bare.2 = (stepAll n m).2.withoutComments (skipped + countSteps executesComment n m) ∧
      bare.1.filterMap deviceError? =
        ((stepAll n m).1.filterMap deviceError?).map
          (RuntimeError.relocate m.program.commandsBefore) := by
  induction n generalizing m skipped with
  | zero => exact ⟨rfl, rfl⟩
  | succ n ih =>
    rw [stepAll_succ]
    rcases executes_cases m with
      ⟨hcomment, hcommand⟩ | ⟨hcomment, hcommand⟩ | ⟨hcomment, hcommand, e, htarget⟩
    · -- the other machine waits, and one more step is skipped
      obtain ⟨hmachine, herrors⟩ := ih (h.step_comment hcomment)
      rw [withoutComments_step_of_comment hcomment] at hmachine herrors
      rw [step_program] at herrors
      rw [countSteps_succ_of_neg hcommand, countSteps_succ_of_pos hcomment, ← Nat.add_assoc,
        Nat.add_right_comm]
      refine ⟨hmachine, ?_⟩
      rw [List.filterMap_cons_none (by rw [step_of_comment hcomment]; rfl)]
      exact herrors
    · -- both machines make a step
      obtain ⟨hmachine, herrors⟩ := ih h.step
      rw [step_program] at herrors
      have hstep := step_withoutComments h hcomment
      rw [countSteps_succ_of_pos hcommand, countSteps_succ_of_neg hcomment, stepAll_succ, hstep]
      refine ⟨hmachine, ?_⟩
      simp only [List.filterMap_cons, Prod.map_fst, Prod.map_snd, deviceError?_mapError, herrors]
      cases deviceError? m.step.1 with
      | none => rfl
      | some e => rfl
    · -- the step fails and leaves the machine as it was
      obtain ⟨hmachine, herrors⟩ := ih h
      rw [countSteps_succ_of_neg hcommand, countSteps_succ_of_neg hcomment,
        step_of_target_error htarget]
      refine ⟨hmachine, ?_⟩
      rw [List.filterMap_cons_none (deviceError?_of_target htarget)]
      exact herrors

/-- Comments come to an end: after some steps over comments a machine stands at none, and the
machine without comments has not moved. -/
theorem exists_stepMany_over_comments (h : Skips skipped m) :
    ∃ j m', stepMany j m = (.ok (), m') ∧ countSteps executesComment j m = j ∧
      m'.executesComment = false ∧
      m'.withoutComments (skipped + j) = m.withoutComments skipped := by
  -- every comment brings the end of the program nearer
  generalize hleft : m.program.size - m.ip = left
  induction left using Nat.strongRecOn generalizing m skipped with
  | ind left ih =>
    by_cases hcomment : m.executesComment = true
    · have hnearer : m.step.2.program.size - m.step.2.ip < left := by
        have hip := (executesComment_eq_true_iff.1 hcomment).2
        rw [step_of_comment hcomment]
        exact hleft ▸ Nat.sub_succ_lt_self _ _ hip
      obtain ⟨j, m', hsteps, hcount, hlast, hbare⟩ :=
        ih _ hnearer (h.step_comment hcomment) rfl
      refine ⟨j + 1, m', ?_, ?_, hlast, ?_⟩
      · rw [stepMany_succ_of_ok (step_of_comment hcomment), ← hsteps, step_of_comment hcomment]
      · rw [countSteps_succ_of_pos hcomment, hcount]
      · rw [← Nat.add_assoc, Nat.add_right_comm, hbare, withoutComments_step_of_comment hcomment]
    · exact ⟨0, m, rfl, rfl, Bool.of_not_eq_true hcomment, rfl⟩

/-- A step without the comments is made by some steps over comments and one more step. -/
theorem exists_step_of_withoutComments (h : Skips skipped m) :
    ∃ j m', stepMany j m = (.ok (), m') ∧ countSteps executesComment (j + 1) m = j ∧
      Skips (skipped + j) m'.step.2 ∧
      (m.withoutComments skipped).step =
        m'.step.map (Except.mapError (RuntimeError.relocate m.program.commandsBefore))
          (withoutComments · (skipped + j)) := by
  obtain ⟨j, m', hsteps, hcount, hlast, hbare⟩ := exists_stepMany_over_comments h
  have hreached := stepAll_of_stepMany_ok hsteps
  have hskips := h.stepAll j
  rw [hreached, hcount] at hskips
  refine ⟨j, m', hsteps, ?_, hskips.step, ?_⟩
  · rw [countSteps_add, hreached, hcount, countSteps_succ_of_neg hlast]
    rfl
  · rw [← hbare, step_withoutComments hskips hlast, ← hreached,
      stepAll_program]

/-- Steps without the comments are made by some number of steps. -/
theorem exists_stepAll_of_withoutComments (n : Nat) (h : Skips skipped m) :
    ∃ k, (stepAll n (m.withoutComments skipped)).2 =
      (stepAll k m).2.withoutComments (skipped + countSteps executesComment k m) := by
  induction n generalizing m skipped with
  | zero => exact ⟨0, rfl⟩
  | succ n ih =>
    obtain ⟨j, m', hsteps, hcount, hskips, hstep⟩ := exists_step_of_withoutComments h
    obtain ⟨k, hk⟩ := ih hskips
    have hreached : (stepAll (j + 1) m).2 = m'.step.2 := by
      rw [stepAll_succ_snd, stepAll_of_stepMany_ok hsteps]
    refine ⟨j + 1 + k, ?_⟩
    rw [stepAll_succ, hstep, stepAll_add, countSteps_add, hreached, hcount, ← Nat.add_assoc]
    exact hk

/-! ## Runs -/

theorem stepMany_withoutComments {n : Nat} (h : Skips skipped m)
    (hsteps : stepMany n m = (.ok (), m')) :
    stepMany (countSteps executesCommand n m) (m.withoutComments skipped) =
      (.ok (), m'.withoutComments (skipped + countSteps executesComment n m)) := by
  induction n generalizing m skipped with
  | zero =>
    obtain ⟨-, rfl⟩ := Prod.mk.inj hsteps
    rfl
  | succ n ih =>
    rcases hstep : m.step with ⟨e | _, m₁⟩
    · rw [stepMany_succ_of_error hstep] at hsteps
      cases hsteps
    · have hm₁ : m.step.2 = m₁ := by rw [hstep]
      rw [stepMany_succ_of_ok hstep] at hsteps
      rcases executes_cases m with
        ⟨hcomment, hcommand⟩ | ⟨hcomment, hcommand⟩ | ⟨-, -, e, htarget⟩
      · have hbare := withoutComments_step_of_comment hcomment skipped
        have hskips := h.step_comment hcomment
        rw [hm₁] at hbare hskips
        rw [countSteps_succ_of_neg hcommand, countSteps_succ_of_pos hcomment, hm₁, ← hbare,
          ← Nat.add_assoc, Nat.add_right_comm]
        exact ih hskips hsteps
      · have hbare := step_withoutComments h hcomment
        have hskips := h.step
        rw [hstep] at hbare hskips
        rw [countSteps_succ_of_pos hcommand, countSteps_succ_of_neg hcomment, hm₁,
          stepMany_succ_of_ok hbare]
        exact ih hskips hsteps
      · rw [step_of_target_error htarget] at hstep
        cases hstep

/-- A run of a machine is followed by a run without the comments. -/
theorem run_withoutComments {fuel : Nat} {r : Except RuntimeError Unit} (h : Skips skipped m)
    (hrun : run fuel m = some (r, m')) :
    ∃ n fuel', m' = (stepAll n m).2 ∧
      run fuel' (m.withoutComments skipped) =
        some (r.mapError (RuntimeError.relocate m.program.commandsBefore),
          m'.withoutComments (skipped + countSteps executesComment n m)) := by
  obtain ⟨n, m₁, hsteps, hend⟩ := exists_stepMany_of_run hrun
  have hgo := run_add_of_stepMany_ok (stepMany_withoutComments h hsteps)
  have hreached := stepAll_of_stepMany_ok hsteps
  have hskips := h.stepAll n
  rw [hreached] at hskips
  rcases hend with ⟨hm₁, rfl, rfl⟩ | ⟨hm₁, e, rfl, hfails⟩
  · have hnone := executesComment_eq_false_of_error (step_of_terminated hm₁)
    have hterminated := hskips.terminated hnone
    refine ⟨n, _, hreached.symm, (hgo 0).trans ?_⟩
    exact run_of_terminated (hterminated.trans hm₁) 0
  · have hnone := executesComment_eq_false_of_error hfails
    have hterminated := hskips.terminated hnone
    have hstep := step_withoutComments hskips hnone
    rw [hfails, ← hreached, stepAll_program, hreached] at hstep
    refine ⟨n + 1, _, ?_, (hgo 1).trans ?_⟩
    · rw [stepAll_succ_snd, hreached, hfails]
    · rw [countSteps_add, hreached, countSteps_succ_of_neg hnone]
      exact run_succ_of_error (hterminated.trans hm₁) hstep 0

theorem exists_stepMany_of_withoutComments {n : Nat} {u : Machine ω ι} (h : Skips skipped m)
    (hsteps : stepMany n (m.withoutComments skipped) = (.ok (), u)) :
    ∃ k m', stepMany k m = (.ok (), m') ∧ m'.executesComment = false ∧
      u = m'.withoutComments (skipped + countSteps executesComment k m) := by
  induction n generalizing m skipped with
  | zero =>
    obtain ⟨j, m', hover, hcount, hlast, hbare⟩ := exists_stepMany_over_comments h
    obtain ⟨-, rfl⟩ := Prod.mk.inj hsteps
    refine ⟨j, m', hover, hlast, ?_⟩
    rw [hcount, hbare]
  | succ n ih =>
    obtain ⟨j, m₁, hover, hcount, hskips, hstep⟩ := exists_step_of_withoutComments h
    rcases hm₁ : m₁.step with ⟨e | _, m₂⟩
    · rw [hm₁] at hstep
      rw [stepMany_succ_of_error hstep] at hsteps
      cases hsteps
    · rw [hm₁] at hstep hskips
      rw [stepMany_succ_of_ok hstep] at hsteps
      obtain ⟨k, m', hmore, hlast, hu⟩ := ih hskips hsteps
      have hgo : stepMany (j + 1) m = (.ok (), m₂) := by
        rw [stepMany_add_of_ok hover, stepMany_succ_of_ok hm₁]
        rfl
      refine ⟨j + 1 + k, m', ?_, hlast, ?_⟩
      · rw [stepMany_add_of_ok hgo, hmore]
      · rw [countSteps_add, stepAll_of_stepMany_ok hgo, hcount, ← Nat.add_assoc, hu]

/-- A run without the comments is followed by a run of the machine. -/
theorem exists_run_of_withoutComments {fuel : Nat} {r : Except RuntimeError Unit}
    {u : Machine ω ι} (h : Skips skipped m)
    (hrun : run fuel (m.withoutComments skipped) = some (r, u)) :
    ∃ n fuel' r', run fuel' m = some (r', (stepAll n m).2) ∧
      r = r'.mapError (RuntimeError.relocate m.program.commandsBefore) ∧
      u = (stepAll n m).2.withoutComments (skipped + countSteps executesComment n m) := by
  obtain ⟨n, u₁, hbare, hend⟩ := exists_stepMany_of_run hrun
  obtain ⟨k, m₁, hsteps, hnone, rfl⟩ := exists_stepMany_of_withoutComments h hbare
  have hgo := run_add_of_stepMany_ok hsteps
  have hreached := stepAll_of_stepMany_ok hsteps
  have hskips := h.stepAll k
  rw [hreached] at hskips
  rw [hskips.terminated hnone] at hend
  rcases hend with ⟨hm₁, rfl, rfl⟩ | ⟨hm₁, e, rfl, hfails⟩
  · refine ⟨k, _, .ok (), (hgo 0).trans ?_, rfl, ?_⟩
    · rw [hreached]
      exact run_of_terminated hm₁ 0
    · rw [hreached]
  · have hbareStep := step_withoutComments hskips hnone
    rw [hfails, ← hreached, stepAll_program, hreached] at hbareStep
    rcases hstep : m₁.step with ⟨e' | _, m₂⟩
    · rw [hstep] at hbareStep
      obtain ⟨he, hu⟩ := Prod.mk.inj hbareStep
      have hlast : (stepAll (k + 1) m).2 = m₂ := by
        rw [stepAll_succ_snd, hreached, hstep]
      refine ⟨k + 1, _, .error e', (hgo 1).trans ?_, he, ?_⟩
      · rw [hlast]
        exact run_succ_of_error hm₁ hstep 0
      · rw [hlast, countSteps_add, hreached, countSteps_succ_of_neg hnone]
        exact hu
    · rw [hstep] at hbareStep
      cases hbareStep

theorem exists_run_ok_iff (h : Skips skipped m) :
    (∃ fuel m', run fuel m = some (.ok (), m')) ↔
      ∃ fuel u, run fuel (m.withoutComments skipped) = some (.ok (), u) := by
  constructor
  · rintro ⟨fuel, m', hrun⟩
    obtain ⟨n, fuel', -, hbare⟩ := run_withoutComments h hrun
    exact ⟨fuel', _, hbare⟩
  · rintro ⟨fuel, u, hbare⟩
    obtain ⟨n, fuel', r, hrun, hr, -⟩ := exists_run_of_withoutComments h hbare
    cases r with
    | error e => cases hr
    | ok => exact ⟨fuel', _, hrun⟩

/-! ## With and without comments -/

/-- **Comments do nothing.** Build one machine on a program and another in the same way on the
program without its comments. After any number of steps of the first, made on after every failure,
the second has made as many as were spent on commands; it is then the first without comments, the
same devices have failed, and its next step is that of the first, unless that is at a comment. Every
state of the second comes about in this way. A run of the one ends if a run of the other does, and
they end alike, with every index replaced by the number of commands in front of it. -/
theorem withoutComments_bisimilar (p : Program) (tape : Tape) (head : Int) (output : Option ω)
    (input : Option ι) (policy : FailurePolicy) :
    let whole : Machine ω ι := { program := p, state := { tape, head, output, input, policy } }
    let bare : Machine ω ι :=
      { program := p.withoutComments, state := { tape, head, output, input, policy } }
    (∀ n,
      let commands := countSteps executesCommand n whole
      let comments := countSteps executesComment n whole
      let reached := (stepAll n whole).2
      (stepAll commands bare).2 = reached.withoutComments comments ∧
        reached.steps = commands + comments ∧
        (stepAll commands bare).1.filterMap deviceError? =
          ((stepAll n whole).1.filterMap deviceError?).map
            (RuntimeError.relocate p.commandsBefore) ∧
        (reached.executesComment = false →
          (stepAll commands bare).2.step.1 =
            reached.step.1.mapError (RuntimeError.relocate p.commandsBefore))) ∧
    (∀ n, ∃ k, (stepAll n bare).2 =
      (stepAll k whole).2.withoutComments (countSteps executesComment k whole)) ∧
    (∀ fuel r m, run fuel whole = some (r, m) →
      ∃ n fuel', m = (stepAll n whole).2 ∧
        run fuel' bare =
          some (r.mapError (RuntimeError.relocate p.commandsBefore),
            m.withoutComments (countSteps executesComment n whole))) ∧
    (∀ fuel r u, run fuel bare = some (r, u) →
      ∃ n fuel' r', run fuel' whole = some (r', (stepAll n whole).2) ∧
        r = r'.mapError (RuntimeError.relocate p.commandsBefore) ∧
        u = (stepAll n whole).2.withoutComments (countSteps executesComment n whole)) ∧
    ((∃ fuel m, run fuel whole = some (.ok (), m)) ↔
      ∃ fuel u, run fuel bare = some (.ok (), u)) := by
  intro whole bare
  have hskips : Skips 0 whole := skips_zero (Nat.zero_le _)
  have hbare : whole.withoutComments 0 = bare := by
    rw [withoutComments, Array.map_empty]
    rfl
  refine ⟨fun n ↦ ?_, fun n ↦ ?_, fun fuel r m hrun ↦ ?_, fun fuel r u hrun ↦ ?_, ?_⟩
  · obtain ⟨hmachine, herrors⟩ := stepAll_withoutComments n hskips
    have hreached := hskips.stepAll n
    rw [Nat.zero_add] at hmachine hreached
    rw [hbare] at hmachine herrors
    refine ⟨hmachine, ?_, herrors, ?_⟩
    · rw [stepAll_steps, countSteps_executes]
      exact Nat.zero_add _
    · intro hcomment
      have hstep := step_withoutComments hreached hcomment
      rw [hmachine, hstep, stepAll_program]
      rfl
  · have hk := exists_stepAll_of_withoutComments n hskips
    simpa only [hbare, Nat.zero_add] using hk
  · have hfollows := run_withoutComments hskips hrun
    simpa only [hbare, Nat.zero_add] using hfollows
  · rw [← hbare] at hrun
    have hfollows := exists_run_of_withoutComments hskips hrun
    simpa only [Nat.zero_add] using hfollows
  · rw [← hbare]
    exact exists_run_ok_iff hskips

/-- In `é+→.✓]` the device fails at index 3 and the bracket has no partner at index 5. Without the
comments these are the indexes 1 and 2, and three steps fewer are made. -/
theorem withoutComments_bisimilar_unmatched :
    let fault := FaultKind.brokenPipe.fault
    let p := Program.ofString "é+→.✓]"
    let s : State Refusal Queue := { output := some ⟨fault⟩, policy := .report }
    (stepAll 5 ⟨p, 0, 0, s⟩).2.executesComment = false ∧
      (stepAll 2 ⟨p.withoutComments, 0, 0, s⟩).2 =
        (stepAll 5 ⟨p, 0, 0, s⟩).2.withoutComments 3 ∧
      (stepAll 2 ⟨p.withoutComments, 0, 0, s⟩).2.step.1 = .error (.unmatched 2 .closing) ∧
      ∃ fuel u, run fuel ⟨p.withoutComments, 0, 0, s⟩ = some (.error (.unmatched 2 .closing), u) ∧
        u.state.reports = #[.device 1 '.' fault] := by
  intro fault p s
  obtain ⟨hsteps, -, hruns, -, -⟩ :=
    withoutComments_bisimilar p s.tape s.head s.output s.input s.policy
  obtain ⟨hmachine, -, -, hstep⟩ := hsteps 5
  have hcomment : (stepAll 5 ⟨p, 0, 0, s⟩).2.executesComment = false := by decide +kernel
  have hcommands : countSteps executesCommand 5 ⟨p, 0, 0, s⟩ = 2 := by decide +kernel
  have hcomments : countSteps executesComment 5 ⟨p, 0, 0, s⟩ = 3 := by decide +kernel
  have hfails : (stepAll 5 ⟨p, 0, 0, s⟩).2.step.1 = .error (.unmatched 5 .closing) := by
    decide +kernel
  have hlast : (run 6 ⟨p, 0, 0, s⟩).map (fun x ↦ (x.1, x.2.program, x.2.state.reports)) =
      some (.error (.unmatched 5 .closing), p, #[.device 3 '.' fault]) := by decide +kernel
  refine ⟨hcomment, ?_, ?_, ?_⟩
  · rw [hcommands, hcomments] at hmachine
    exact hmachine
  · have hfails' := hstep hcomment
    rw [hcommands] at hfails'
    refine hfails'.trans ?_
    rw [hfails]
    decide +kernel
  · obtain ⟨⟨r, m⟩, hrun, hm⟩ := Option.map_eq_some_iff.1 hlast
    simp only [Prod.mk.injEq] at hm
    obtain ⟨rfl, hprogram, hreports⟩ := hm
    obtain ⟨n, fuel, -, hbare⟩ := hruns 6 _ m hrun
    refine ⟨fuel, _, hbare, ?_⟩
    simp only [withoutComments, hprogram, hreports]
    decide +kernel

end Machine

end Brainfuck
