import Brainfuck.Machine.Run
import Brainfuck.Proofs.Machine.Jumps
import Mathlib.Tactic.Common

/-!
# Counted steps and runs

Making `a` steps and then `b` more is making `a + b` steps, as long as none of the first `a` fails.
A run with enough fuel makes steps until it stops, so what counted steps do says what a run does. In
particular more fuel never changes the answer of a run that has one.

Steps can also be made on after a failure, and those among them that are of some kind can be
counted, or what they have to show can be collected. The counter of a machine counts the steps that
execute a symbol.
-/

namespace Brainfuck.Machine

variable {ω ι : Type} {m m' : Machine ω ι} {e : RuntimeError}

/-- Whether the next step executes a symbol: there is one, and control has somewhere to go. -/
def executes (m : Machine ω ι) : Bool := m.target.isOk

/-- A machine never comes to a command that its program does not have. -/
theorem command?_ne_of_not_mem {k : Command} (h : k.toChar ∉ m.program.toList) :
    m.command? ≠ some k := by
  intro hk
  apply h
  rw [Array.mem_toList_iff]
  exact Array.mem_of_getElem? (Program.commandAt_eq_some_iff.1 hk)

variable [OutputDevice ω] [InputDevice ι]

/-! ## Steps -/

theorem step_of_terminated (h : m.terminated = true) : m.step = (.error (.terminated m.ip), m) := by
  have hip : m.ip = m.program.size := of_decide_eq_true h
  exact step_of_target_error (target_of_size_le (Nat.le_of_eq hip.symm))

/-- A step with any other result shows that the program has not come to its end. -/
theorem terminated_eq_false_of_step {r : Except RuntimeError Unit} (h : m.step = (r, m'))
    (hr : ∀ ip, r ≠ .error (.terminated ip)) : m.terminated = false := by
  by_contra hterminated
  rw [step_of_terminated (Bool.of_not_eq_false hterminated)] at h
  exact hr m.ip (Prod.mk.inj h).1.symm

theorem stepMany_succ_of_ok (h : m.step = (.ok (), m')) (n : Nat) :
    stepMany (n + 1) m = stepMany n m' := by
  rw [stepMany_succ, h]

theorem stepMany_succ_of_error (h : m.step = (.error e, m')) (n : Nat) :
    stepMany (n + 1) m = (.error e, m') := by
  rw [stepMany_succ, h]

@[simp] theorem stepMany_program (n : Nat) (m : Machine ω ι) :
    (stepMany n m).2.program = m.program := by
  induction n generalizing m with
  | zero => rfl
  | succ n ih =>
    have hprogram := step_program m
    rcases hstep : m.step with ⟨_ | _, m₁⟩
    · rw [hstep] at hprogram
      rw [stepMany_succ_of_error hstep]
      exact hprogram
    · rw [hstep] at hprogram
      rw [stepMany_succ_of_ok hstep, ih]
      exact hprogram

/-- Machines that make the same first step make the same steps from there on. -/
theorem stepMany_eq_of_step_eq {n : Nat} (hn : 0 < n) (h : m.step = m'.step) :
    stepMany n m = stepMany n m' := by
  obtain ⟨n, rfl⟩ := Nat.exists_eq_succ_of_ne_zero (Nat.ne_of_gt hn)
  rw [stepMany_succ, stepMany_succ, h]

theorem stepMany_add_of_ok {n : Nat} (h : stepMany n m = (.ok (), m')) (k : Nat) :
    stepMany (n + k) m = stepMany k m' := by
  induction n generalizing m with
  | zero =>
    obtain ⟨-, rfl⟩ := Prod.mk.inj h
    rw [Nat.zero_add]
  | succ n ih =>
    rw [Nat.add_right_comm]
    rcases hstep : m.step with ⟨_ | _, m₁⟩
    · rw [stepMany_succ_of_error hstep] at h
      cases h
    · rw [stepMany_succ_of_ok hstep] at h ⊢
      exact ih h

theorem stepMany_add_of_error {n : Nat} (h : stepMany n m = (.error e, m')) (k : Nat) :
    stepMany (n + k) m = (.error e, m') := by
  induction n generalizing m with
  | zero => cases h
  | succ n ih =>
    rw [Nat.add_right_comm]
    rcases hstep : m.step with ⟨_ | _, m₁⟩
    · rw [stepMany_succ_of_error hstep] at h ⊢
      exact h
    · rw [stepMany_succ_of_ok hstep] at h ⊢
      exact ih h

/-- A machine that has stopped, with an error or at the end of its program, makes no more steps. -/
theorem stepMany_succ_add_of_stopped {n : Nat} {r : Except RuntimeError Unit}
    (h : stepMany n m = (r, m')) (hstop : r = .ok () → m'.terminated = true) (k : Nat) :
    ∃ e, stepMany (n + (k + 1)) m = (.error e, m') := by
  cases r with
  | error e => exact ⟨e, stepMany_add_of_error h (k + 1)⟩
  | ok =>
    refine ⟨.terminated m'.ip, ?_⟩
    rw [stepMany_add_of_ok h]
    exact stepMany_succ_of_error (step_of_terminated (hstop rfl)) k

/-! ## Steps that are made on after a failure -/

theorem stepAll_add (a b : Nat) (m : Machine ω ι) :
    stepAll (a + b) m =
      ((stepAll a m).1 ++ (stepAll b (stepAll a m).2).1, (stepAll b (stepAll a m).2).2) := by
  induction a generalizing m with
  | zero => rw [Nat.zero_add, stepAll_zero, List.nil_append]
  | succ a ih =>
    rw [Nat.add_right_comm, stepAll_succ, ih, stepAll_succ]
    rfl

theorem stepAll_succ_snd (n : Nat) (m : Machine ω ι) :
    (stepAll (n + 1) m).2 = (stepAll n m).2.step.2 := by
  rw [stepAll_add]
  rfl

/-- What every step keeps is kept by any number of steps. -/
theorem stepAll_keeps {I : Machine ω ι → Prop} (hstep : ∀ m, I m → I m.step.2) (h : I m)
    (n : Nat) : I (stepAll n m).2 := by
  induction n with
  | zero => exact h
  | succ n ih =>
    rw [stepAll_succ_snd]
    exact hstep _ ih

theorem stepAll_le_size (h : m.ip ≤ m.program.size) (n : Nat) :
    (stepAll n m).2.ip ≤ (stepAll n m).2.program.size :=
  stepAll_keeps (I := fun m ↦ m.ip ≤ m.program.size) (fun _ ↦ step_le_size) h n

/-- Steps none of which fails need not be made on. -/
theorem stepAll_of_stepMany_ok {n : Nat} (h : stepMany n m = (.ok (), m')) :
    (stepAll n m).2 = m' := by
  induction n generalizing m with
  | zero => exact (Prod.mk.inj h).2
  | succ n ih =>
    rcases hstep : m.step with ⟨_ | _, m₁⟩
    · rw [stepMany_succ_of_error hstep] at h
      cases h
    · rw [stepMany_succ_of_ok hstep] at h
      rw [stepAll_succ, hstep]
      exact ih h

theorem stepMany_keeps {I : Machine ω ι → Prop} (hstep : ∀ m, I m → I m.step.2) (hm : I m)
    {n : Nat} (h : stepMany n m = (.ok (), m')) : I m' := by
  rw [← stepAll_of_stepMany_ok h]
  exact stepAll_keeps hstep hm n

theorem stepMany_le_size (hip : m.ip ≤ m.program.size) {n : Nat}
    (h : stepMany n m = (.ok (), m')) : m'.ip ≤ m'.program.size :=
  stepMany_keeps (I := fun m ↦ m.ip ≤ m.program.size) (fun _ ↦ step_le_size) hip h

theorem stepAll_fst_of_stepMany_ok {n : Nat} (h : stepMany n m = (.ok (), m')) :
    (stepAll n m).1 = List.replicate n (.ok ()) := by
  induction n generalizing m with
  | zero => rfl
  | succ n ih =>
    rcases hstep : m.step with ⟨_ | _, m₁⟩
    · rw [stepMany_succ_of_error hstep] at h
      cases h
    · rw [stepMany_succ_of_ok hstep] at h
      rw [stepAll_succ, hstep]
      exact congrArg (Except.ok () :: ·) (ih h)

theorem stepAll_program (n : Nat) (m : Machine ω ι) : (stepAll n m).2.program = m.program := by
  apply stepAll_keeps (I := fun m' ↦ m'.program = m.program)
  · intro m' h
    rw [step_program, h]
  · rfl

/-! ## Counting steps -/

/-- How many of the next `n` steps are made from a machine that passes a test. -/
def countSteps (test : Machine ω ι → Bool) : Nat → Machine ω ι → Nat
  | 0, _ => 0
  | n + 1, m => (if test m then 1 else 0) + countSteps test n m.step.2

theorem countSteps_succ (test : Machine ω ι → Bool) (n : Nat) (m : Machine ω ι) :
    countSteps test (n + 1) m = (if test m then 1 else 0) + countSteps test n m.step.2 := rfl

theorem countSteps_succ_of_pos {test : Machine ω ι → Bool} (h : test m = true) (n : Nat) :
    countSteps test (n + 1) m = countSteps test n m.step.2 + 1 := by
  rw [countSteps_succ, if_pos h, Nat.add_comm]

theorem countSteps_succ_of_neg {test : Machine ω ι → Bool} (h : test m = false) (n : Nat) :
    countSteps test (n + 1) m = countSteps test n m.step.2 := by
  rw [countSteps_succ, h, if_neg Bool.false_ne_true, Nat.zero_add]

theorem countSteps_add (test : Machine ω ι → Bool) (a b : Nat) (m : Machine ω ι) :
    countSteps test (a + b) m = countSteps test a m + countSteps test b (stepAll a m).2 := by
  induction a generalizing m with
  | zero =>
    rw [Nat.zero_add, countSteps, Nat.zero_add]
    rfl
  | succ a ih =>
    rw [Nat.add_right_comm, countSteps_succ, countSteps_succ, ih, Nat.add_assoc]
    rfl

theorem step_steps (m : Machine ω ι) :
    m.step.2.steps = m.steps + if m.executes then 1 else 0 := by
  rw [executes]
  cases h : m.target with
  | error e =>
    rw [step_of_target_error h]
    rfl
  | ok next =>
    rw [step_of_target_ok h]
    rfl

/-- A step that executes no symbol leaves the machine as it was. -/
theorem step_snd_of_not_executes (h : m.executes = false) : m.step.2 = m := by
  cases htarget : m.target with
  | error e => rw [step_of_target_error htarget]
  | ok next =>
    rw [executes, htarget] at h
    cases h

theorem executes_of_step_ok (h : m.step = (.ok (), m')) : m.executes = true := by
  by_contra hexecutes
  rcases htarget : m.target with e | next
  · rw [step_of_target_error htarget] at h
    cases h
  · exact hexecutes (by rw [executes, htarget]; rfl)

/-- The steps that a machine counts are those that execute a symbol. -/
theorem stepAll_steps (n : Nat) (m : Machine ω ι) :
    (stepAll n m).2.steps = m.steps + countSteps executes n m := by
  induction n generalizing m with
  | zero => rfl
  | succ n ih =>
    have hrest : (stepAll (n + 1) m).2 = (stepAll n m.step.2).2 := rfl
    rw [hrest, ih, step_steps, countSteps_succ, Nat.add_assoc]

/-! ## Collecting along the way -/

/-- What is found by looking at the machine before each of the next `n` steps, in order. -/
def collectSteps {α : Type} (look : Machine ω ι → Option α) : Nat → Machine ω ι → List α
  | 0, _ => []
  | n + 1, m => (look m).toList ++ collectSteps look n m.step.2

theorem collectSteps_add {α : Type} (look : Machine ω ι → Option α) (a b : Nat)
    (m : Machine ω ι) :
    collectSteps look (a + b) m =
      collectSteps look a m ++ collectSteps look b (stepAll a m).2 := by
  induction a generalizing m with
  | zero => rw [Nat.zero_add, collectSteps, stepAll_zero, List.nil_append]
  | succ a ih =>
    rw [Nat.add_right_comm, collectSteps, collectSteps, ih, List.append_assoc]
    rfl

/-! ## Runs -/

theorem run_succ_of_ok (h : m.step = (.ok (), m')) (fuel : Nat) :
    run (fuel + 1) m = run fuel m' := by
  rw [run_succ (terminated_eq_false_of_step h (by simp)), h]

theorem run_succ_of_error (hm : m.terminated = false) (h : m.step = (.error e, m')) (fuel : Nat) :
    run (fuel + 1) m = some (.error e, m') := by
  rw [run_succ hm, h]

/-- A run goes on from where its first steps have led. -/
theorem run_add_of_stepMany_ok {n : Nat} (h : stepMany n m = (.ok (), m')) (fuel : Nat) :
    run (n + fuel) m = run fuel m' := by
  induction n generalizing m with
  | zero =>
    obtain ⟨-, rfl⟩ := Prod.mk.inj h
    rw [Nat.zero_add]
  | succ n ih =>
    rw [Nat.add_right_comm]
    rcases hstep : m.step with ⟨_ | _, m₁⟩
    · rw [stepMany_succ_of_error hstep] at h
      cases h
    · rw [stepMany_succ_of_ok hstep] at h
      rw [run_succ_of_ok hstep]
      exact ih h

/-- A run fails with the first error of its steps, unless that is only the end of the program. -/
theorem run_of_stepMany_error {n : Nat} (h : stepMany n m = (.error e, m'))
    (he : ∀ ip, e ≠ .terminated ip) : run n m = some (.error e, m') := by
  induction n generalizing m with
  | zero => cases h
  | succ n ih =>
    rcases hstep : m.step with ⟨e₁ | _, m₁⟩
    · rw [stepMany_succ_of_error hstep] at h
      obtain ⟨he₁, rfl⟩ := Prod.mk.inj h
      obtain rfl := Except.error.inj he₁
      refine run_succ_of_error (terminated_eq_false_of_step hstep fun ip hip ↦ ?_) hstep n
      exact he ip (Except.error.inj hip)
    · rw [stepMany_succ_of_ok hstep] at h
      rw [run_succ_of_ok hstep]
      exact ih h

/-- What a run with an answer has done: nothing at the end of its program, a step that failed, or a
step from which the run goes on with less fuel. -/
theorem run_cases {fuel : Nat} {r : Except RuntimeError Unit} (h : run fuel m = some (r, m')) :
    (m.terminated = true ∧ r = .ok () ∧ m' = m) ∨
      (m.terminated = false ∧ ∃ k e, fuel = k + 1 ∧ r = .error e ∧ m.step = (.error e, m')) ∨
      ∃ k m₁, fuel = k + 1 ∧ m.step = (.ok (), m₁) ∧ run k m₁ = some (r, m') := by
  cases hm : m.terminated with
  | true =>
    rw [run_of_terminated hm] at h
    obtain ⟨rfl, rfl⟩ := Prod.mk.inj (Option.some.inj h)
    exact Or.inl ⟨rfl, rfl, rfl⟩
  | false =>
    refine Or.inr ?_
    cases fuel with
    | zero =>
      rw [run_zero hm] at h
      cases h
    | succ k =>
      rcases hstep : m.step with ⟨e | _, m₁⟩
      · rw [run_succ_of_error hm hstep] at h
        obtain ⟨rfl, rfl⟩ := Prod.mk.inj (Option.some.inj h)
        exact Or.inl ⟨rfl, k, e, rfl, rfl, rfl⟩
      · rw [run_succ_of_ok hstep] at h
        exact Or.inr ⟨k, m₁, rfl, rfl, h⟩

/-- A run that has an answer has made some steps, none of which failed, and has then come to the end
of the program or to a step that fails. -/
theorem exists_stepMany_of_run {fuel : Nat} {r : Except RuntimeError Unit}
    (h : run fuel m = some (r, m')) :
    ∃ n m₁, stepMany n m = (.ok (), m₁) ∧
      (m₁.terminated = true ∧ r = .ok () ∧ m' = m₁ ∨
        m₁.terminated = false ∧ ∃ e, r = .error e ∧ m₁.step = (.error e, m')) := by
  induction fuel using Nat.strongRecOn generalizing m with
  | ind fuel ih =>
    rcases run_cases h with ⟨hm, hr, hm'⟩ | ⟨hm, -, e, -, hr, hstep⟩ | ⟨k, m₂, rfl, hstep, hmore⟩
    · exact ⟨0, m, rfl, Or.inl ⟨hm, hr, hm'⟩⟩
    · exact ⟨0, m, rfl, Or.inr ⟨hm, e, hr, hstep⟩⟩
    · obtain ⟨n, m₁, hsteps, hend⟩ := ih k (Nat.lt_succ_self k) hmore
      refine ⟨n + 1, m₁, ?_, hend⟩
      rw [stepMany_succ_of_ok hstep, hsteps]

/-- A run that has an answer has the same answer with more fuel. -/
theorem run_add_of_eq_some {fuel : Nat} {r : Except RuntimeError Unit}
    (h : run fuel m = some (r, m')) (more : Nat) : run (fuel + more) m = some (r, m') := by
  induction fuel using Nat.strongRecOn generalizing m with
  | ind fuel ih =>
    rcases run_cases h with
      ⟨hm, rfl, rfl⟩ | ⟨hm, k, e, rfl, rfl, hstep⟩ | ⟨k, m₁, rfl, hstep, hmore⟩
    · exact run_of_terminated hm _
    · rw [Nat.add_right_comm]
      exact run_succ_of_error hm hstep _
    · rw [Nat.add_right_comm, run_succ_of_ok hstep]
      exact ih k (Nat.lt_succ_self k) hmore

/-- A machine has at most one answer, whatever the fuel. -/
theorem run_unique {fuel fuel' : Nat} {x x' : Except RuntimeError Unit × Machine ω ι}
    (h : run fuel m = some x) (h' : run fuel' m = some x') : x = x' := by
  have hx := run_add_of_eq_some h fuel'
  have hx' := run_add_of_eq_some h' fuel
  rw [Nat.add_comm, hx] at hx'
  exact Option.some.inj hx'

end Brainfuck.Machine
