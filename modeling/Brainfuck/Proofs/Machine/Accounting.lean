import Brainfuck.Proofs.Machine.Devices
import Brainfuck.Proofs.Machine.Jumps
import Brainfuck.Proofs.Machine.Steps
import Mathlib.Algebra.Group.Nat.Defs

/-!
# The accounts of a machine

How far a machine can have come is bounded by the number of symbols it has executed. A symbol moves
the head by at most one cell, stores into at most one cell, the one under the head, and counts at
most one failure. So after `n` symbols the head is at most `n` cells away from where it started, at
most `n` cells have been touched, and all of them are nearer than that. Which cells these are can be
read off the symbols that were executed.

## Counters in words

The counters of a machine are numbers without a bound. A machine that keeps its counters in words of
64 bits does the same until a counter leaves the range of its word, and the accounts show that this
takes at least `2 ^ 63` symbols.
-/

namespace Brainfuck

variable {ω ι : Type}

/-! ## Symbols -/

namespace State

/-- The address at which the symbol stores, if it stores: that of the cell under the head. A `,`
stores if its device is there and does not fail. -/
def storesAt? [InputDevice ι] (s : State ω ι) : Option Command → Option Int
  | some .increment | some .decrement => some s.head
  | some .input =>
    match s.input.map fun d ↦ (InputDevice.poll d).1 with
    | some (.ok _) => some s.head
    | _ => none
  | _ => none

theorem read_head [InputDevice ι] (s : State ω ι) (i : Nat) : (s.read i).2.head = s.head := by
  cases hd : s.input with
  | none => simp only [read, hd]
  | some d =>
    rcases hpoll : InputDevice.poll d with ⟨f | b, d'⟩
    · simp only [read, hd, hpoll]
      exact (fail_snd _ _).2.1
    · simp only [read, hd, hpoll, store]

theorem fail_failures (s : State ω ι) (e : RuntimeError) :
    (s.fail e).2.failures = s.failures + 1 := by
  rw [fail]
  cases s.policy with
  | report => rfl
  | halt => rfl

variable [OutputDevice ω] [InputDevice ι]

/-- A symbol changes the tape only by storing. -/
theorem exec_tape (s : State ω ι) (i : Nat) (c : Option Command) :
    (s.storesAt? c = none ∧ (s.exec i c).2.tape = s.tape) ∨
      (s.storesAt? c = some s.head ∧ ∃ b, (s.exec i c).2.tape = s.tape.set s.head b) := by
  cases c with
  | none => exact .inl ⟨rfl, rfl⟩
  | some op =>
    cases op with
    | increment => exact .inr ⟨rfl, _, rfl⟩
    | decrement => exact .inr ⟨rfl, _, rfl⟩
    | output => exact .inl ⟨rfl, (write_snd s i).1⟩
    | input =>
      cases hd : s.input with
      | none =>
        refine .inl ⟨?_, ?_⟩
        · rw [storesAt?, hd]
          rfl
        · simp only [exec, read, hd]
      | some d =>
        rcases hpoll : InputDevice.poll d with ⟨f | b, d'⟩
        · refine .inl ⟨?_, ?_⟩
          · rw [storesAt?, hd, Option.map_some, hpoll]
          · simp only [exec, read, hd, hpoll]
            exact (fail_snd _ _).1
        · refine .inr ⟨?_, b.getD notReady, ?_⟩
          · rw [storesAt?, hd, Option.map_some, hpoll]
          · simp only [exec, read, hd, hpoll, store]
    | _ => exact .inl ⟨rfl, rfl⟩

/-- A symbol moves the head by at most one cell. -/
theorem exec_head (s : State ω ι) (i : Nat) (c : Option Command) :
    (s.exec i c).2.head.natAbs ≤ s.head.natAbs + 1 := by
  cases c with
  | none => exact Nat.le_succ _
  | some op =>
    cases op with
    | right => exact Int.natAbs_add_le s.head 1
    | left => exact Int.natAbs_sub_le s.head 1
    | output =>
      rw [exec, (write_snd s i).2.1]
      exact Nat.le_succ _
    | input =>
      rw [exec, read_head]
      exact Nat.le_succ _
    | _ => exact Nat.le_succ _

/-- A symbol counts at most one failure, and only if it uses a device. -/
theorem exec_failures (s : State ω ι) (i : Nat) (c : Option Command) :
    (s.exec i c).2.failures ≤
      s.failures + if c = some .output ∨ c = some .input then 1 else 0 := by
  rcases works_or_fails s i c with ⟨t, ht, hexec⟩ | ⟨e, t, ht, -, -, ⟨op, f, rfl, hop, -⟩, hexec⟩
  · have h := hexec s.policy s.reports
    rw [under_self] at h
    rw [h]
    exact Nat.le_add_right_of_le (Nat.le_of_eq ht)
  · have h := hexec s.policy s.reports
    rw [under_self] at h
    have huses : some op = some .output ∨ some op = some .input :=
      hop.imp (congrArg some) (congrArg some)
    rw [h, fail_failures, if_pos huses]
    exact Nat.le_of_eq (congrArg (· + 1) ht)

end State

/-! ## Steps -/

namespace Machine

variable {m : Machine ω ι}

/-- The counters of a machine fit into words of 64 bits, the address of the head with its sign. -/
structure FitsWords (m : Machine ω ι) : Prop where
  head_ge : Int64.minValue.toInt ≤ m.state.head
  head_le : m.state.head ≤ Int64.maxValue.toInt
  steps_lt : m.steps < UInt64.size
  failures_lt : m.state.failures < UInt64.size

/-- Whether the next step executes a `.` or a `,`. -/
def usesDevice (m : Machine ω ι) : Bool :=
  m.executes && (m.command? = some .output ∨ m.command? = some .input)

/-- The address at which the next step stores, if it stores. -/
def storesAt? [InputDevice ι] (m : Machine ω ι) : Option Int :=
  if m.executes then m.state.storesAt? m.command? else none

/-- What the head and the tape have come to after `n` symbols. -/
structure Accounted (n : Nat) (m : Machine ω ι) : Prop where
  /-- Every symbol has been counted. -/
  steps_eq : m.steps = n
  /-- Control is in the program or at its end. -/
  le_size : m.ip ≤ m.program.size
  /-- The head has moved by at most one cell with every symbol. -/
  head_le : m.state.head.natAbs ≤ n
  /-- Every symbol has touched at most one cell. -/
  size_le : m.state.tape.size ≤ n
  /-- A cell was touched by a symbol when the head was over it. -/
  touched_lt : ∀ a, m.state.tape.Touched a → a.natAbs < n

/-- The counters fit into words as long as fewer than `2 ^ 63` symbols have been executed. -/
theorem Accounted.fitsWords {n : Nat} (h : Accounted n m) (hfailures : m.state.failures ≤ n)
    (hn : n < 2 ^ 63) : m.FitsWords := by
  have hhead := h.head_le
  have hsteps := h.steps_eq
  refine ⟨?_, ?_, ?_, ?_⟩
  · rw [Int64.toInt_minValue]
    omega
  · rw [Int64.toInt_maxValue]
    omega
  · rw [UInt64.size]
    omega
  · rw [UInt64.size]
    omega

variable [OutputDevice ω] [InputDevice ι]

/-- A step that does not execute a symbol leaves the state, and one that does is the work of the
symbol. -/
theorem step_state (m : Machine ω ι) :
    m.step.2.state = if m.executes then (m.state.exec m.ip m.command?).2 else m.state := by
  rw [executes]
  cases h : m.target with
  | error e =>
    rw [step_of_target_error h]
    rfl
  | ok next =>
    rw [step_of_target_ok h]
    rfl

/-- A step changes the tape only by storing, and then a symbol is executed and stores under the
head. -/
theorem step_tape (m : Machine ω ι) :
    (m.storesAt? = none ∧ m.step.2.state.tape = m.state.tape) ∨
      (m.storesAt? = some m.state.head ∧ m.executes = true ∧
        ∃ b, m.step.2.state.tape = m.state.tape.set m.state.head b) := by
  rw [step_state, storesAt?]
  split
  · next hexecutes =>
    rcases m.state.exec_tape m.ip m.command? with hnone | ⟨hsome, hset⟩
    · exact .inl hnone
    · exact .inr ⟨hsome, hexecutes, hset⟩
  · exact .inl ⟨rfl, rfl⟩

/-- A step touches just the cell at which it stores. -/
theorem step_touched_iff (m : Machine ω ι) (a : Int) :
    m.step.2.state.tape.Touched a ↔ m.state.tape.Touched a ∨ m.storesAt? = some a := by
  rcases step_tape m with ⟨hnone, htape⟩ | ⟨hsome, -, b, htape⟩
  · rw [htape, hnone]
    simp
  · rw [htape, hsome, Tape.touched_set_iff, Option.some_inj, or_comm]

/-- One more step, and one more symbol at most. -/
theorem Accounted.step {n : Nat} (h : Accounted n m) :
    Accounted (n + if m.executes then 1 else 0) m.step.2 := by
  refine ⟨?_, step_le_size h.le_size, ?_, ?_, fun a ha ↦ ?_⟩
  · rw [step_steps, h.steps_eq]
  · rw [step_state]
    split
    · exact Nat.le_trans (State.exec_head _ _ _) (Nat.succ_le_succ h.head_le)
    · exact h.head_le
  · rcases step_tape m with ⟨-, htape⟩ | ⟨-, hexecutes, b, htape⟩
    · rw [htape]
      exact Nat.le_add_right_of_le h.size_le
    · rw [htape, if_pos hexecutes]
      exact Nat.le_trans (Tape.size_set_le _ _ b) (Nat.succ_le_succ h.size_le)
  · rcases step_tape m with ⟨-, htape⟩ | ⟨-, hexecutes, b, htape⟩
    · rw [htape] at ha
      exact Nat.lt_add_right _ (h.touched_lt a ha)
    · rw [htape, Tape.touched_set_iff] at ha
      rw [if_pos hexecutes]
      rcases ha with rfl | ha
      · exact Nat.lt_succ_of_le h.head_le
      · exact Nat.lt_succ_of_lt (h.touched_lt a ha)

/-! ## Runs -/

/-- The accounts of a machine that was accounted for go on with the symbols that it executes. -/
theorem Accounted.stepAll {n : Nat} (h : Accounted n m) (k : Nat) :
    Accounted (n + countSteps executes k m) (Machine.stepAll k m).2 := by
  induction k generalizing n m with
  | zero => exact h
  | succ k ih =>
    rw [countSteps_succ, ← Nat.add_assoc]
    exact ih h.step

/-- The cells that are touched after some steps are those at which the steps stored, beside those
that were touched before. -/
theorem stepAll_touched_iff (k : Nat) (m : Machine ω ι) (a : Int) :
    (stepAll k m).2.state.tape.Touched a ↔
      m.state.tape.Touched a ∨ a ∈ collectSteps storesAt? k m := by
  induction k generalizing m with
  | zero => simp [collectSteps]
  | succ k ih =>
    rw [stepAll_succ, ih, step_touched_iff, collectSteps, List.mem_append, Option.mem_toList,
      or_assoc]

theorem step_failures (m : Machine ω ι) :
    m.step.2.state.failures ≤ m.state.failures + if m.usesDevice then 1 else 0 := by
  rw [step_state, usesDevice]
  cases m.executes with
  | false => exact Nat.le_add_right _ _
  | true =>
    have h := m.state.exec_failures m.ip m.command?
    simpa using h

/-- There are no more failures than symbols that use a device. -/
theorem stepAll_failures (k : Nat) (m : Machine ω ι) :
    (stepAll k m).2.state.failures ≤ m.state.failures + countSteps usesDevice k m := by
  induction k generalizing m with
  | zero => exact Nat.le_refl _
  | succ k ih =>
    rw [countSteps_succ, ← Nat.add_assoc]
    exact Nat.le_trans (ih m.step.2) (Nat.add_le_add_right (step_failures m) _)

/-- A kind of steps that is part of another is counted less often. -/
theorem countSteps_le {test test' : Machine ω ι → Bool}
    (h : ∀ m, test m = true → test' m = true) (k : Nat) (m : Machine ω ι) :
    countSteps test k m ≤ countSteps test' k m := by
  induction k generalizing m with
  | zero => exact Nat.le_refl _
  | succ k ih =>
    have hrest := ih m.step.2
    rw [countSteps_succ, countSteps_succ]
    by_cases hm : test m = true
    · rw [if_pos hm, if_pos (h m hm)]
      omega
    · rw [if_neg hm]
      omega

/-- At the end of the program there is no next step. -/
theorem stepAll_of_terminated (h : m.terminated = true) (k : Nat) : (stepAll k m).2 = m := by
  apply stepAll_keeps (I := fun m' ↦ m' = m)
  · rintro m' rfl
    rw [step_of_terminated h]
  · rfl

/-- **The accounts of a machine.** Take a machine as it is built, and any number of steps, of which
`n` execute a symbol. Then `n` steps are counted, control is in the program or at its end, the head
is at most `n` cells from its start, and there are no more failures than symbols that use a device.
The cells that have been touched are just those at which a symbol stored, so there are at most `n`
of them, all less than `n` cells from the start. While `n` is below `2 ^ 63` no counter leaves the
range of a word. Control cannot go past the end of the program: it stays there when it has come to
it. -/
theorem counters_account_for_steps (p : Program) (output : Option ω) (input : Option ι)
    (policy : FailurePolicy) (k : Nat) :
    let start : Machine ω ι := { program := p, state := { output, input, policy } }
    let reached := (stepAll k start).2
    let n := countSteps executes k start
    reached.steps = n ∧ reached.ip ≤ p.size ∧ reached.state.head.natAbs ≤ n ∧
      reached.state.failures ≤ countSteps usesDevice k start ∧
      (∀ a, reached.state.tape.Touched a ↔ a ∈ collectSteps storesAt? k start) ∧
      reached.state.tape.size ≤ n ∧ (∀ a, reached.state.tape.Touched a → a.natAbs < n) ∧
      (n < 2 ^ 63 → reached.FitsWords) ∧
      (reached.terminated = true ↔ p.size ≤ reached.ip) ∧
      (reached.terminated = true → ∀ j, (stepAll (k + j) start).2 = reached) := by
  intro start reached n
  have hstart : Accounted 0 start :=
    ⟨rfl, Nat.zero_le _, Nat.le_refl 0, Nat.le_refl 0,
      fun a ha ↦ (Tape.not_touched_blank a ha).elim⟩
  have haccounted : Accounted n reached := by
    have h := hstart.stepAll k
    rwa [Nat.zero_add] at h
  have hfailures : reached.state.failures ≤ countSteps usesDevice k start := by
    have h := stepAll_failures k start
    rwa [Nat.zero_add] at h
  have huses : countSteps usesDevice k start ≤ n :=
    countSteps_le (fun m hm ↦ (Bool.and_eq_true_iff.1 hm).1) k start
  have hprogram : reached.program = p := stepAll_program k start
  have hip : reached.ip ≤ p.size := hprogram ▸ haccounted.le_size
  refine ⟨haccounted.steps_eq, hip, haccounted.head_le, hfailures, fun a ↦ ?_, haccounted.size_le,
    haccounted.touched_lt, haccounted.fitsWords (Nat.le_trans hfailures huses), ?_, ?_⟩
  · rw [stepAll_touched_iff]
    exact or_iff_right (Tape.not_touched_blank a)
  · rw [terminated, decide_eq_true_iff, hprogram]
    exact ⟨fun h ↦ Nat.le_of_eq h.symm, fun h ↦ Nat.le_antisymm hip h⟩
  · intro hend j
    rw [stepAll_add]
    exact stepAll_of_terminated hend j

/-- The accounts of a run in which a device fails and a jump has nowhere to go: of the eight steps
the last two are made at a `]` without a partner. -/
theorem counters_account_for_steps_unmatched :
    let start : Machine Refusal Queue :=
      { program := .ofString ">+.<<-]"
        state := { output := some ⟨FaultKind.brokenPipe.fault⟩, policy := .halt } }
    countSteps executes 8 start = 6 ∧ (stepAll 8 start).2.FitsWords ∧
      (stepAll 8 start).2.state.failures ≤ 1 ∧
      ∀ a, (stepAll 8 start).2.state.tape.Touched a ↔ a = 1 ∨ a = -1 := by
  intro start
  have hn : countSteps executes 8 start = 6 := by decide +kernel
  have huses : countSteps usesDevice 8 start = 1 := by decide +kernel
  have hstores : collectSteps storesAt? 8 start = [1, -1] := by decide +kernel
  obtain ⟨-, -, -, hfailures, htouched, -, -, hfits, -⟩ :=
    counters_account_for_steps (.ofString ">+.<<-]") (some (⟨FaultKind.brokenPipe.fault⟩ : Refusal))
      (none : Option Queue) .halt 8
  refine ⟨hn, hfits ?_, ?_, fun a ↦ ?_⟩
  · rw [hn]
    decide
  · rw [← huses]
    exact hfailures
  · rw [htouched, hstores]
    simp

end Machine

end Brainfuck
