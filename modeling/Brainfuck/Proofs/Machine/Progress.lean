import Brainfuck.Proofs.Machine.Jumps
import Brainfuck.Proofs.Machine.Steps
import Brainfuck.Proofs.Program.Pairing

/-!
# How long a run can take

Every symbol takes control further on in the program, but for one: a `]` that repeats its loop takes
control back. So a run that does not end is one that repeats loops again and again, and how long a
run takes is bounded by how often it repeats a loop.

## The balance

Neither the instruction pointer nor the number of repeats bounds the steps alone. What does is a
balance of both. A symbol that takes control further on is paid for by the place that control gains.
A repeat gives away the place it had come to, which is worth no more than the length of the program,
and is charged with that. So the steps so far are at most the length of the program for each repeat,
and what the instruction pointer shows.
-/

namespace Brainfuck.Machine

variable {ω ι : Type} {m m' : Machine ω ι} {n fuel : Nat}

/-- Whether the next step repeats a loop: it executes a `]` on a cell that is not `0`. -/
def repeatsLoop (m : Machine ω ι) : Bool :=
  m.executes && (m.command? = some .loopEnd ∧ m.cell ≠ 0)

theorem repeatsLoop_eq_true_iff :
    m.repeatsLoop = true ↔ m.executes = true ∧ m.command? = some .loopEnd ∧ m.cell ≠ 0 := by
  rw [repeatsLoop, Bool.and_eq_true, decide_eq_true_iff]

theorem exists_target_of_executes (h : m.executes = true) : ∃ next, m.target = .ok next := by
  rw [executes] at h
  rcases htarget : m.target with e | next
  · rw [htarget] at h
    cases h
  · exact ⟨next, rfl⟩

theorem lt_size_of_executes (h : m.executes = true) : m.ip < m.program.size := by
  obtain ⟨next, htarget⟩ := exists_target_of_executes h
  exact (target_eq_ok htarget).1

variable [OutputDevice ω] [InputDevice ι]

/-! ## One step -/

/-- A symbol takes control further on, unless it repeats a loop. -/
theorem ip_lt_step_ip (hexecutes : m.executes = true)
    (hforward : ¬ (m.command? = some .loopEnd ∧ m.cell ≠ 0)) : m.ip < m.step.2.ip := by
  obtain ⟨next, htarget⟩ := exists_target_of_executes hexecutes
  have hip : m.step.2.ip = next := by rw [step_of_target_ok htarget]
  rw [hip]
  obtain ⟨-, ⟨rfl, -⟩ | ⟨-, -, j, rfl, hloop⟩ | ⟨hend, hcell, -⟩⟩ := target_eq_ok htarget
  · exact Nat.lt_succ_self _
  · exact Nat.lt_succ_of_lt hloop.lt
  · exact absurd ⟨hend, hcell⟩ hforward

/-- A `]` that repeats its loop takes control back, to behind the `[`. -/
theorem exists_isLoop_of_repeats (h : m.repeatsLoop = true) :
    ∃ i, m.program.IsLoop i m.ip ∧ m.step.2.ip = i + 1 := by
  obtain ⟨hexecutes, hend, hcell⟩ := repeatsLoop_eq_true_iff.1 h
  obtain ⟨next, htarget⟩ := exists_target_of_executes hexecutes
  have hip : m.step.2.ip = next := by rw [step_of_target_ok htarget]
  rw [hip]
  obtain ⟨-, ⟨-, -, hzero⟩ | ⟨hstart, -⟩ | ⟨-, -, i, rfl, hloop⟩⟩ := target_eq_ok htarget
  · exact absurd (hzero hend) hcell
  · cases hstart.symm.trans hend
  · exact ⟨i, hloop, rfl⟩

/-! ## The balance -/

/-- A step keeps the balance: the place that control gains pays for it, or the repeat does. -/
theorem step_balance (m : Machine ω ι) :
    (if m.executes then 1 else 0) + m.ip ≤
      (if m.repeatsLoop then 1 else 0) * m.program.size + m.step.2.ip := by
  by_cases hrepeats : m.repeatsLoop = true
  · have hip := lt_size_of_executes (repeatsLoop_eq_true_iff.1 hrepeats).1
    rw [if_pos hrepeats, Nat.one_mul]
    split
    · omega
    · omega
  · rw [if_neg hrepeats, Nat.zero_mul, Nat.zero_add]
    by_cases hexecutes : m.executes = true
    · have hip := ip_lt_step_ip hexecutes
        fun h ↦ hrepeats (repeatsLoop_eq_true_iff.2 ⟨hexecutes, h⟩)
      rw [if_pos hexecutes]
      omega
    · rw [if_neg hexecutes, step_snd_of_not_executes (Bool.of_not_eq_true hexecutes)]
      omega

/-- The symbols that are executed are paid for by the repeats and by the instruction pointer. -/
theorem stepAll_balance (n : Nat) (m : Machine ω ι) :
    countSteps executes n m + m.ip ≤
      countSteps repeatsLoop n m * m.program.size + (stepAll n m).2.ip := by
  induction n generalizing m with
  | zero => exact Nat.add_le_add_right (Nat.zero_le _) m.ip
  | succ n ih =>
    have hfirst := step_balance m
    have hrest := ih m.step.2
    have hlast : (stepAll (n + 1) m).2 = (stepAll n m.step.2).2 := rfl
    rw [step_program] at hrest
    rw [countSteps_succ, countSteps_succ, hlast, Nat.add_mul]
    omega

/-- A run that begins with the first symbol executes at most all symbols once, and once more for
each repeat. -/
theorem countSteps_executes_le (hip : m.ip ≤ m.program.size) (n : Nat) :
    countSteps executes n m ≤ (countSteps repeatsLoop n m + 1) * m.program.size := by
  have hbalance := stepAll_balance n m
  have hend := stepAll_le_size hip n
  rw [stepAll_program] at hend
  rw [Nat.succ_mul]
  omega

/-! ## Runs -/

/-- A run with no answer yet has made all its steps, and has not come to the end. -/
theorem exists_stepMany_of_run_eq_none (h : run fuel m = none) :
    ∃ m', stepMany fuel m = (.ok (), m') ∧ m'.terminated = false := by
  induction fuel, m using run.induct with
  | case1 fuel m hm =>
    rw [run_of_terminated hm] at h
    cases h
  | case2 m hm => exact ⟨m, rfl, Bool.of_not_eq_true hm⟩
  | case3 m _ fuel m₁ hstep ih =>
    rw [run_succ_of_ok hstep] at h
    rw [stepMany_succ_of_ok hstep]
    exact ih h
  | case4 m hm fuel e m₁ hstep =>
    rw [run_succ_of_error (Bool.of_not_eq_true hm) hstep] at h
    cases h

theorem countSteps_executes_of_stepMany_ok (h : stepMany n m = (.ok (), m')) :
    countSteps executes n m = n := by
  induction n generalizing m with
  | zero => rfl
  | succ n ih =>
    rcases hstep : m.step with ⟨_ | _, m₁⟩
    · rw [stepMany_succ_of_error hstep] at h
      cases h
    · rw [stepMany_succ_of_ok hstep] at h
      rw [countSteps_succ_of_pos (executes_of_step_ok hstep), hstep, ih h]

theorem countSteps_le_self (test : Machine ω ι → Bool) (n : Nat) (m : Machine ω ι) :
    countSteps test n m ≤ n := by
  induction n generalizing m with
  | zero => exact Nat.le_refl 0
  | succ n ih =>
    have hrest := ih m.step.2
    rw [countSteps_succ]
    split
    · omega
    · omega

/-- A run that repeats loops at most `bound` times, as far as it goes, comes to its end. -/
theorem exists_run_of_repeats_le {bound : Nat} (hip : m.ip ≤ m.program.size)
    (hbound : ∀ n m', stepMany n m = (.ok (), m') → countSteps repeatsLoop n m ≤ bound) :
    ∃ x, run ((bound + 1) * m.program.size) m = some x := by
  rw [← Option.isSome_iff_exists, ← Option.ne_none_iff_isSome]
  intro hnone
  obtain ⟨m', hsteps, hgoing⟩ := exists_stepMany_of_run_eq_none hnone
  -- without an answer all the fuel is used up, which is more than the repeats and the place pay for
  have hplace : m'.ip < m.program.size := by
    have hle := stepMany_le_size hip hsteps
    have hprogram := stepMany_program ((bound + 1) * m.program.size) m
    rw [hsteps] at hprogram
    rw [hprogram] at hle
    exact Nat.lt_of_le_of_ne hle (hprogram ▸ of_decide_eq_false hgoing)
  have hrepeats := Nat.mul_le_mul_right m.program.size (hbound _ _ hsteps)
  have hbalance := stepAll_balance ((bound + 1) * m.program.size) m
  rw [countSteps_executes_of_stepMany_ok hsteps, stepAll_of_stepMany_ok hsteps] at hbalance
  have hfuel : (bound + 1) * m.program.size = bound * m.program.size + m.program.size :=
    Nat.succ_mul _ _
  omega

/-- A run that has an answer has repeated loops only so often. -/
theorem exists_repeats_le_of_run {x : Except RuntimeError Unit × Machine ω ι}
    (h : run fuel m = some x) :
    ∃ bound, ∀ n m', stepMany n m = (.ok (), m') → countSteps repeatsLoop n m ≤ bound := by
  obtain ⟨c, m₁, hsteps, hend⟩ := exists_stepMany_of_run h
  have hstop : ∃ e m₂, stepMany (c + 1) m = (.error e, m₂) := by
    rw [stepMany_add_of_ok hsteps]
    rcases hend with ⟨hm₁, -, -⟩ | ⟨-, e, -, hstep⟩
    · exact ⟨_, _, stepMany_succ_of_error (step_of_terminated hm₁) 0⟩
    · exact ⟨_, _, stepMany_succ_of_error hstep 0⟩
  obtain ⟨e, m₂, herror⟩ := hstop
  refine ⟨c, fun n m' hn ↦ ?_⟩
  by_contra hmore
  have hcount := countSteps_le_self repeatsLoop n m
  obtain ⟨k, rfl⟩ := Nat.exists_eq_add_of_le (show c + 1 ≤ n by omega)
  rw [stepMany_add_of_error herror] at hn
  cases hn

/-- A program without a `]` repeats nothing. -/
theorem countSteps_repeatsLoop_eq_zero (h : Command.loopEnd.toChar ∉ m.program.toList) (n : Nat) :
    countSteps repeatsLoop n m = 0 := by
  induction n generalizing m with
  | zero => rfl
  | succ n ih =>
    have hrepeats : m.repeatsLoop = false := by
      refine Bool.of_not_eq_true fun hrepeats ↦ ?_
      exact command?_ne_of_not_mem h (repeatsLoop_eq_true_iff.1 hrepeats).2.1
    rw [countSteps_succ_of_neg hrepeats]
    apply ih
    rw [step_program]
    exact h

/-- **Only loops that are repeated can delay the end.** In any program, a symbol that is executed
takes control further on, unless it is a `]` on a cell that is not `0`; such a `]` takes control
back to behind its `[`. So a run that begins with the first symbol, on whatever state and devices,
has executed at most as many symbols as the program has, once and once more for each repeat of a
loop so far, also where it is made to go on after failures. A run of which the repeats are bounded
has an answer after that many steps, and a run that has an answer is one of which the repeats are
bounded. A program without a `]` has come to an end when each of its symbols could have been
executed once. -/
theorem only_repeats_delay_the_end (p : Program) (steps : Nat) (s : State ω ι) :
    (∀ m : Machine ω ι, m.program = p → m.executes = true →
      (¬ (m.command? = some .loopEnd ∧ m.cell ≠ 0) → m.ip < m.step.2.ip) ∧
        (m.command? = some .loopEnd → m.cell ≠ 0 →
          ∃ i < m.ip, p.Paired i m.ip ∧ m.step.2.ip = i + 1)) ∧
    let start : Machine ω ι := ⟨p, 0, steps, s⟩
    (∀ n, (stepAll n start).2.steps = steps + countSteps executes n start ∧
        countSteps executes n start ≤ (countSteps repeatsLoop n start + 1) * p.size) ∧
      (∀ bound,
        (∀ n m, stepMany n start = (.ok (), m) → countSteps repeatsLoop n start ≤ bound) →
          ∃ x, run ((bound + 1) * p.size) start = some x) ∧
      (∀ fuel x, run fuel start = some x → ∃ bound, ∀ n m,
        stepMany n start = (.ok (), m) → countSteps repeatsLoop n start ≤ bound) ∧
      (Command.loopEnd.toChar ∉ p.toList → ∃ x, run p.size start = some x) := by
  have hip : (⟨p, 0, steps, s⟩ : Machine ω ι).ip ≤ p.size := Nat.zero_le _
  refine ⟨fun m hm hexecutes ↦ ⟨ip_lt_step_ip hexecutes, fun hend hcell ↦ ?_⟩,
    fun n ↦ ⟨stepAll_steps n _, countSteps_executes_le hip n⟩,
    fun bound ↦ exists_run_of_repeats_le hip, fun fuel x ↦ exists_repeats_le_of_run, fun hnone ↦ ?_⟩
  · obtain ⟨i, hloop, hnext⟩ :=
      exists_isLoop_of_repeats (repeatsLoop_eq_true_iff.2 ⟨hexecutes, hend, hcell⟩)
    rw [hm] at hloop
    exact ⟨i, hloop.lt, Program.paired_iff_isLoop.2 hloop, hnext⟩
  · have hzero : ∀ n, countSteps repeatsLoop n (⟨p, 0, steps, s⟩ : Machine ω ι) ≤ 0 :=
      fun n ↦ Nat.le_of_eq (countSteps_repeatsLoop_eq_zero hnone n)
    have hrun := exists_run_of_repeats_le hip fun n _ _ ↦ hzero n
    rwa [Nat.zero_add, Nat.one_mul] at hrun

/-- On `++[-]` the loop is repeated once, by the fifth step, so ten steps are enough for an answer.
On `+[.` with an output that refuses its byte three steps are enough. -/
theorem only_repeats_delay_the_end_once :
    let p := Program.ofString "++[-]"
    let start : Machine Collector Queue := ⟨p, 0, 0, {}⟩
    let back := (stepAll 4 start).2
    let q := Program.ofString "+[."
    let refused : State Refusal Queue :=
      { output := some ⟨FaultKind.brokenPipe.fault⟩, policy := .halt }
    (start.program = p ∧ start.executes = true ∧
        ¬ (start.command? = some .loopEnd ∧ start.cell ≠ 0) ∧ start.ip < start.step.2.ip) ∧
      (back.program = p ∧ back.executes = true ∧ back.command? = some .loopEnd ∧ back.cell ≠ 0 ∧
        ∃ i < back.ip, p.Paired i back.ip ∧ back.step.2.ip = i + 1) ∧
      ((∀ n m, stepMany n start = (.ok (), m) → countSteps repeatsLoop n start ≤ 1) ∧
        ∃ x, run 10 start = some x) ∧
      (∃ x, run 7 start = some x ∧ ∃ bound, ∀ n m,
        stepMany n start = (.ok (), m) → countSteps repeatsLoop n start ≤ bound) ∧
      Command.loopEnd.toChar ∉ q.toList ∧ ∃ x, run 3 ⟨q, 0, 0, refused⟩ = some x := by
  intro p start back q refused
  obtain ⟨hsteps, -, hbounded, hanswered, -⟩ := only_repeats_delay_the_end p 0 start.state
  obtain ⟨-, -, -, -, hnone⟩ := only_repeats_delay_the_end q 0 refused
  have hstart : start.executes = true := by decide
  have hforward : ¬ (start.command? = some .loopEnd ∧ start.cell ≠ 0) := by decide
  have hback : back.executes = true := by decide +kernel
  have hend : back.command? = some .loopEnd := by decide +kernel
  have hcell : back.cell ≠ 0 := by decide +kernel
  have hprogram : back.program = p := stepAll_program 4 start
  have hbound : ∀ n m, stepMany n start = (.ok (), m) → countSteps repeatsLoop n start ≤ 1 := by
    have hfew : ∀ n < 8, countSteps repeatsLoop n start ≤ 1 := by decide +kernel
    have hstop : (stepMany 8 start).1 = .error (.terminated 5) := by decide +kernel
    intro n m hn
    refine hfew n (Nat.lt_of_not_le fun hmore ↦ ?_)
    obtain ⟨k, rfl⟩ := Nat.exists_eq_add_of_le hmore
    rw [stepMany_add_of_error (Prod.ext hstop rfl)] at hn
    cases hn
  have hseven : (run 7 start).isSome = true := by decide +kernel
  obtain ⟨x, hx⟩ := Option.isSome_iff_exists.1 hseven
  exact ⟨⟨rfl, hstart, hforward, (hsteps start rfl hstart).1 hforward⟩,
    ⟨hprogram, hback, hend, hcell, (hsteps back hprogram hback).2 hend hcell⟩,
    ⟨hbound, hbounded 1 hbound⟩, ⟨x, hx, hanswered 7 x hx⟩, by decide, hnone (by decide)⟩

end Brainfuck.Machine
