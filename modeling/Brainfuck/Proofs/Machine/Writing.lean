import Brainfuck.Proofs.Device.Writer
import Brainfuck.Proofs.Machine.Accounting
import Brainfuck.Proofs.Machine.Calls

/-!
# Every byte is written once

A machine offers its writer one byte at each `.`, the cell under the head, and never another one.
What the writer does with a byte, how often it is interrupted, whether it fails and in which phase,
has no effect on what it is offered next in the order of the program. So the accounts of the writer,
which are about a row of bytes, are accounts of the whole run.
-/

namespace Brainfuck

/-! ## Symbols that write -/

namespace State

variable {ω ι : Type} {s : State ω ι}

/-- A `.` counts a failure if the answer of the device is a fault. -/
theorem write_failures [OutputDevice ω] {d : ω} (hd : s.output = some d) (i : Nat) :
    (s.write i).2.failures =
      s.failures + if (OutputDevice.emit s.cell d).1.isOk then 0 else 1 := by
  rcases hemit : OutputDevice.emit s.cell d with ⟨f | _, d'⟩
  · simp only [write, hd, hemit]
    exact fail_failures _ _
  · simp only [write, hd, hemit]
    rfl

/-- No symbol takes a failure back. -/
theorem le_exec_failures [OutputDevice ω] [InputDevice ι] (s : State ω ι) (i : Nat)
    (c : Option Command) : s.failures ≤ (s.exec i c).2.failures := by
  rcases works_or_fails s i c with ⟨t, ht, hexec⟩ | ⟨e, t, ht, -, -, -, hexec⟩
  · have h := hexec s.policy s.reports
    rw [under_self] at h
    rw [h]
    exact Nat.le_of_eq ht.symm
  · have h := hexec s.policy s.reports
    rw [under_self] at h
    rw [h, fail_failures]
    exact Nat.le_succ_of_le (Nat.le_of_eq ht.symm)

end State

/-! ## Machines -/

namespace Machine

variable {ω ι : Type}

/-- The byte that the next step offers to the output device: the cell under the head, if the step
executes a `.`. -/
def offers? (m : Machine ω ι) : Option UInt8 :=
  if m.command? = some .output then some m.cell else none

variable [OutputDevice ω] [InputDevice ι]

/-- Whether the next step executes the command `op` and counts a failure. -/
def failsAt (op : Command) (m : Machine ω ι) : Bool :=
  m.command? = some op && m.state.failures < m.step.2.state.failures

/-- A step counts one failure at most, for the one command that it executes. -/
theorem step_failures_eq (m : Machine ω ι) :
    m.step.2.state.failures =
      m.state.failures +
        ((if m.failsAt .output then 1 else 0) + if m.failsAt .input then 1 else 0) := by
  have hle := step_failures m
  have hge : m.state.failures ≤ m.step.2.state.failures := by
    rw [step_state]
    split
    · exact State.le_exec_failures _ _ _
    · exact Nat.le_refl _
  rcases Nat.eq_or_lt_of_le hge with hsame | hmore
  · have hnone : ∀ op, m.failsAt op = false := by
      intro op
      simp [failsAt, ← hsame]
    rw [hnone, hnone, ← hsame]
    rfl
  · -- only a symbol that uses a device can fail, and it is one of the two
    have huses : m.usesDevice = true := by
      by_contra huses
      rw [if_neg huses] at hle
      omega
    rw [if_pos huses] at hle
    have hone : m.step.2.state.failures = m.state.failures + 1 := Nat.le_antisymm hle hmore
    obtain ⟨-, hop⟩ := Bool.and_eq_true_iff.1 huses
    rcases of_decide_eq_true hop with hop | hop
    · have hwrites : m.failsAt .output = true := by simp [failsAt, hop, hmore]
      have hreads : m.failsAt .input = false := by simp [failsAt, hop]
      rw [hone, hwrites, hreads]
      rfl
    · have hwrites : m.failsAt .output = false := by simp [failsAt, hop]
      have hreads : m.failsAt .input = true := by simp [failsAt, hop, hmore]
      rw [hone, hwrites, hreads]
      rfl

/-- All failures are failures of a `.` or of a `,`. -/
theorem stepAll_failures_eq (n : Nat) (m : Machine ω ι) :
    (stepAll n m).2.state.failures =
      m.state.failures +
        (countSteps (failsAt .output) n m + countSteps (failsAt .input) n m) := by
  induction n generalizing m with
  | zero => rfl
  | succ n ih =>
    rw [stepAll_succ, ih, step_failures_eq, countSteps_succ, countSteps_succ]
    omega

/-- A `.` counts a failure if the answer of its device is a fault. -/
theorem failsAt_output {m : Machine ω ι} {d : ω} (hop : m.command? = some .output)
    (hd : m.state.output = some d) :
    (if m.failsAt .output then 1 else 0) =
      if (OutputDevice.emit m.cell d).1.isOk then 0 else 1 := by
  have hfailures : m.step.2.state.failures =
      m.state.failures + if (OutputDevice.emit m.cell d).1.isOk then 0 else 1 := by
    rw [step_of_target_ok (target_of_device hop (Or.inl rfl)), hop]
    exact State.write_failures hd m.ip
  rw [failsAt, hop, hfailures]
  cases (OutputDevice.emit m.cell d).1.isOk with
  | true => simp
  | false => simp

/-- A step that executes a `.` offers the writer its byte, and any other step leaves it alone. -/
theorem step_handles {m : Machine Writer ι} {d : Writer} (hd : m.state.output = some d) :
    ∃ d' calls flushed, m.step.2.state.output = some d' ∧
      d.Handles m.offers?.toList (if m.failsAt .output then 1 else 0) calls flushed d' := by
  rw [step_output, hd]
  by_cases hop : m.command? = some .output
  · obtain ⟨calls, flushed, hemit⟩ := d.handles_emit m.cell
    refine ⟨_, calls, flushed, if_pos hop, ?_⟩
    rw [failsAt_output hop hd, offers?, if_pos hop]
    exact hemit
  · refine ⟨d, 0, 0, if_neg hop, ?_⟩
    simp only [offers?, failsAt, hop]
    exact .refl d

/-- The writer handles the bytes that it is offered along the way, in order. -/
theorem stepAll_handles (n : Nat) {m : Machine Writer ι} {d : Writer}
    (hd : m.state.output = some d) :
    ∃ d' calls flushed, (stepAll n m).2.state.output = some d' ∧
      d.Handles (collectSteps offers? n m) (countSteps (failsAt .output) n m) calls flushed d' := by
  induction n generalizing m d with
  | zero => exact ⟨d, 0, 0, hd, .refl d⟩
  | succ n ih =>
    obtain ⟨d₁, calls, flushed, hd₁, hstep⟩ := step_handles hd
    obtain ⟨d', calls', flushed', hd', hrest⟩ := ih hd₁
    refine ⟨d', calls + calls', flushed + flushed', ?_, hstep.trans hrest⟩
    rw [stepAll_succ]
    exact hd'

open Writer in
/-- **Every byte is written once.** Take a machine whose output is a writer over a channel that
follows any two scripts, with any program, input and policy, and let it make any number of steps,
going on after errors; a run is such steps. The bytes it has offered are the cells under the head at
every `.` that was executed. Then there is one verdict for each of them, and the writer has accepted
just those with the verdict `taken`, in order. It has flushed the channel once for each accepted
byte, and has called write once for each `.` and once more for each interruption. The failures that
were counted at a `.` are the verdicts other than `taken` and the flushes that failed, and all other
failures were counted at a `,`. -/
theorem each_byte_is_written_once (p : Program) (writes : List WriteReply)
    (flushes : List (Option Fault)) (input : Option ι) (policy : FailurePolicy) :
    let start : Machine Writer ι :=
      { program := p, state := { output := some { writes, flushes }, input, policy } }
    (∀ n,
      let reached := (stepAll n start).2
      let offered := collectSteps offers? n start
      ∃ d, reached.state.output = some d ∧
        let replies := writes.takeD d.writeCalls .taken
        d.writes = writes.drop d.writeCalls ∧ d.flushes = flushes.drop d.flushCalls ∧
        (verdicts replies).length = offered.length ∧
        d.bytes.toList = takenBytes offered (verdicts replies) ∧
        d.flushCalls = d.bytes.size ∧
        d.writeCalls = offered.length + replies.countP WriteReply.isInterruption ∧
        countSteps (failsAt .output) n start =
          (verdicts replies).countP (· ≠ .taken) +
            (flushes.takeD d.flushCalls none).countP Option.isSome ∧
        reached.state.failures =
          countSteps (failsAt .output) n start + countSteps (failsAt .input) n start) ∧
    ∀ fuel r m', run fuel start = some (r, m') → ∃ n ≤ fuel, (stepAll n start).2 = m' := by
  intro start
  refine ⟨fun n ↦ ?_, fun fuel r m' hrun ↦ ?_⟩
  · obtain ⟨d, calls, flushed, hd, h⟩ := stepAll_handles n (m := start) rfl
    obtain rfl : calls = d.writeCalls := by rw [h.writeCalls_eq, Nat.zero_add]
    obtain rfl : flushed = d.flushCalls := by rw [h.flushCalls_eq, Nat.zero_add]
    have hbytes := h.bytes_eq
    rw [Array.toList_empty, List.nil_append] at hbytes
    refine ⟨d, hd, h.writes_eq, h.flushes_eq, h.length_verdicts, hbytes, ?_, ?_, h.failed_eq, ?_⟩
    · rw [h.flushed_eq, ← hbytes, Array.length_toList]
    · rw [← h.length_verdicts, ← length_eq_verdicts_add, List.takeD_length]
    · rw [stepAll_failures_eq, Nat.zero_add]
  · obtain ⟨n, hn, hstops⟩ := stops_of_run hrun
    exact ⟨n, hn, hstops.reached⟩

/-- On `.+.+.+.` the first byte is accepted at the second call and its flush is interrupted, the
second is taken by nobody, the third fails, and then the scripts have run out: two bytes are
accepted, with five calls of write and two of flush, and three failures are counted. Under the
policy to halt a run ends at the first `.`. -/
theorem each_byte_is_written_once_interrupted :
    let interrupted := FaultKind.interrupted.fault
    let brokenPipe := FaultKind.brokenPipe.fault
    let writes := [.fault interrupted, .taken, .nothing, .fault brokenPipe]
    let start : Machine Writer Queue :=
      { program := .ofString ".+.+.+."
        state := { output := some { writes, flushes := [some interrupted] }, policy := .halt } }
    collectSteps offers? 7 start = [0, 1, 2, 3] ∧
      (∃ d, (stepAll 7 start).2.state.output = some d ∧ d.writeCalls = 5 ∧
        d.bytes.toList =
          Writer.takenBytes [0, 1, 2, 3] [.taken, .nothing, .fault brokenPipe, .taken] ∧
        d.bytes = #[0, 3] ∧ d.flushCalls = 2 ∧ countSteps (failsAt .output) 7 start = 2 + 1) ∧
      (run 7 start).map Prod.fst = some (.error (.device 0 '.' interrupted)) ∧
      ∃ r m', run 7 start = some (r, m') ∧ ∃ n ≤ 7, (stepAll n start).2 = m' := by
  intro interrupted brokenPipe writes start
  have hoffered : collectSteps offers? 7 start = [0, 1, 2, 3] := by decide +kernel
  have hrun : (run 7 start).map Prod.fst = some (.error (.device 0 '.' interrupted)) := by
    decide +kernel
  obtain ⟨hsteps, hruns⟩ := each_byte_is_written_once (.ofString ".+.+.+.") writes
    [some interrupted] (none : Option Queue) .halt
  refine ⟨hoffered, ?_, hrun, ?_⟩
  · obtain ⟨d, hd, -, -, -, hbytes, hflushed, -, hfailed, -⟩ := hsteps 7
    have hd' : ∃ d', (stepAll 7 start).2.state.output = some d' ∧ d'.writeCalls = 5 ∧
        d'.bytes = #[0, 3] := ⟨_, rfl, rfl, rfl⟩
    obtain ⟨d', hd', hcalls', hbytes'⟩ := hd'
    obtain rfl : d' = d := Option.some.inj (hd'.symm.trans hd)
    rw [hoffered, hcalls'] at hbytes
    rw [hbytes'] at hflushed
    rw [hcalls', hflushed] at hfailed
    exact ⟨d', hd, hcalls', hbytes, hbytes', hflushed, hfailed⟩
  · obtain ⟨⟨r, m'⟩, hm', -⟩ := Option.map_eq_some_iff.1 hrun
    exact ⟨r, m', hm', hruns 7 r m' hm'⟩

end Machine

end Brainfuck
