import Brainfuck.Machine.Run
import Brainfuck.Proofs.Machine.Failures
import Brainfuck.Proofs.Machine.Jumps
import Brainfuck.Proofs.Machine.Steps

/-!
# Reporting and halting

The two policies differ only in how the failures of devices surface. A machine that halts and is
stepped on after each failure goes through the same states as a machine that reports, and the errors
it gives on the way are the reports of the other.

## Two runs side by side

Both machines are one machine under two policies, so a step of both is said once: from a machine `m`
there are a result and a next machine, such that under either policy the step leads to this next
machine, and the result surfaces as the policy has it. That the failing symbol counts as executed
under both policies is what keeps the two side by side; a machine that stayed at the symbol would
execute it again.
-/

namespace Brainfuck

/-! ## Results -/

/-- The error of a device that a result is, if it is one. -/
def deviceError? : Except RuntimeError Unit → Option RuntimeError
  | .error (.device i op f) => some (.device i op f)
  | _ => none

/-- A result as it is when errors of devices do not surface in it. -/
def withoutDeviceError : Except RuntimeError Unit → Except RuntimeError Unit
  | .error (.device _ _ _) => .ok ()
  | r => r

theorem withoutDeviceError_of_eq_none {r : Except RuntimeError Unit} (h : deviceError? r = none) :
    withoutDeviceError r = r := by
  unfold withoutDeviceError
  split
  · cases h
  · rfl

theorem eq_error_of_deviceError? {r : Except RuntimeError Unit} {e : RuntimeError}
    (h : deviceError? r = some e) : r = .error e := by
  unfold deviceError? at h
  split at h
  · rw [Option.some.inj h]
  · cases h

theorem withoutDeviceError_of_eq_some {r : Except RuntimeError Unit} {e : RuntimeError}
    (h : deviceError? r = some e) : withoutDeviceError r = .ok () := by
  unfold deviceError? at h
  split at h
  · rfl
  · cases h

namespace Machine

variable {ω ι : Type} {m : Machine ω ι}

/-- The machine with another policy and other reports. -/
def under (m : Machine ω ι) (policy : FailurePolicy) (reports : Array RuntimeError) :
    Machine ω ι :=
  { m with state := m.state.under policy reports }

/-- The machine with another policy. -/
def withPolicy (m : Machine ω ι) (policy : FailurePolicy) : Machine ω ι :=
  m.under policy m.state.reports

/-- Two machines are alike if they differ in their policy and in their reports at most. -/
structure Alike (m m' : Machine ω ι) : Prop where
  program : m.program = m'.program
  ip : m.ip = m'.ip
  steps : m.steps = m'.steps
  tape : m.state.tape = m'.state.tape
  head : m.state.head = m'.state.head
  output : m.state.output = m'.state.output
  input : m.state.input = m'.state.input
  failures : m.state.failures = m'.state.failures

theorem alike_under (m : Machine ω ι) (k l : FailurePolicy) (xs ys : Array RuntimeError) :
    Alike (m.under k xs) (m.under l ys) :=
  ⟨rfl, rfl, rfl, rfl, rfl, rfl, rfl, rfl⟩

theorem deviceError?_of_target {e : RuntimeError} (h : m.target = .error e) :
    deviceError? (.error e) = none := by
  rcases target_eq_error h with rfl | ⟨side, rfl⟩
  · rfl
  · rfl

variable [OutputDevice ω] [InputDevice ι]

/-! ## One step of both -/

/-- From `m` a step leads to `m'`, and its result is `r` where errors of devices surface. -/
structure StepsTo (m : Machine ω ι) (r : Except RuntimeError Unit) (m' : Machine ω ι) : Prop where
  /-- Under the policy to halt. -/
  halt : ∀ xs, (m.under .halt xs).step = (r, m'.under .halt xs)
  /-- Under the policy to report. -/
  report : ∀ xs, (m.under .report xs).step =
    (withoutDeviceError r, m'.under .report (xs ++ (deviceError? r).toArray))
  /-- An error of a device is counted. -/
  failures : m'.state.failures = m.state.failures + (deviceError? r).toList.length

theorem exists_stepsTo (m : Machine ω ι) : ∃ r m', m.StepsTo r m' := by
  cases htarget : m.target with
  | error e =>
    -- control cannot move, so no device is used and the policy is not asked
    have hnone := deviceError?_of_target htarget
    refine ⟨.error e, m, fun xs ↦ ?_, fun xs ↦ ?_, ?_⟩
    · exact step_of_target_error htarget
    · rw [withoutDeviceError_of_eq_none hnone, hnone, Option.toArray_none, Array.append_empty]
      exact step_of_target_error htarget
    · rw [hnone]
      rfl
  | ok next =>
    have hstep : ∀ k xs, (m.under k xs).step =
        (((m.state.under k xs).exec m.ip m.command?).1,
          ⟨m.program, next, m.steps + 1, ((m.state.under k xs).exec m.ip m.command?).2⟩) :=
      fun k xs ↦ step_of_target_ok htarget
    rcases State.works_or_fails m.state m.ip m.command? with
      ⟨t, hfailures, hexec⟩ | ⟨e, t, hfailures, -, -, ⟨op, f, -, -, rfl⟩, hexec⟩
    · refine ⟨.ok (), ⟨m.program, next, m.steps + 1, t⟩, fun xs ↦ ?_, fun xs ↦ ?_, hfailures⟩
      · rw [hstep, hexec]
        rfl
      · rw [hstep, hexec]
        rfl
    · refine ⟨.error (.device m.ip op.toChar f), ⟨m.program, next, m.steps + 1, t.counted⟩,
        fun xs ↦ ?_, fun xs ↦ ?_, ?_⟩
      · rw [hstep, hexec, State.fail_halt]
        rfl
      · rw [hstep, hexec, State.fail_report]
        rfl
      · rw [← hfailures]
        rfl

/-- Many steps of both: the errors of devices that surface under the one policy are the reports
under the other, and they are the failures that are counted. -/
theorem exists_stepAll_under (n : Nat) (m : Machine ω ι) :
    ∃ (rs : List (Except RuntimeError Unit)) (m' : Machine ω ι),
      (∀ xs, stepAll n (m.under .halt xs) = (rs, m'.under .halt xs)) ∧
      (∀ xs, stepAll n (m.under .report xs) =
        (rs.map withoutDeviceError, m'.under .report (xs ++ (rs.filterMap deviceError?).toArray))) ∧
      m'.state.failures = m.state.failures + (rs.filterMap deviceError?).length := by
  induction n generalizing m with
  | zero =>
    refine ⟨[], m, fun xs ↦ rfl, fun xs ↦ ?_, rfl⟩
    rw [List.filterMap_nil, Array.append_empty]
    rfl
  | succ n ih =>
    obtain ⟨r, m₁, hhalt, hreport, hfailures⟩ := exists_stepsTo m
    obtain ⟨rs, m', ihHalt, ihReport, ihFailures⟩ := ih m₁
    refine ⟨r :: rs, m', fun xs ↦ ?_, fun xs ↦ ?_, ?_⟩
    · rw [stepAll_succ, hhalt, ihHalt]
    · rw [stepAll_succ, hreport, ihReport, List.map_cons, Array.append_assoc]
      cases hr : deviceError? r with
      | none => simp [hr]
      | some e => simp [hr]
    · rw [ihFailures, hfailures]
      cases hr : deviceError? r with
      | none => simp [hr]
      | some e => simp [hr, Nat.add_assoc, Nat.add_comm 1]

/-! ## Runs of both -/

/-- `RunsOn m r m'`: a run of `m` that is made to go on after each error of a device ends with the
result `r`, which is no such error, at the machine `m'`. -/
inductive RunsOn : Machine ω ι → Except RuntimeError Unit → Machine ω ι → Prop
  /-- The run does not end with an error of a device. -/
  | last {m m' : Machine ω ι} {r : Except RuntimeError Unit} {fuel : Nat}
      (answer : run fuel m = some (r, m')) (other : deviceError? r = none) : RunsOn m r m'
  /-- The run ends with an error of a device, and is made again. -/
  | again {m m₁ m' : Machine ω ι} {r : Except RuntimeError Unit} {e : RuntimeError} {fuel : Nat}
      (answer : run fuel m = some (.error e, m₁)) (device : deviceError? (.error e) = some e)
      (more : RunsOn m₁ r m') : RunsOn m r m'

theorem RunsOn.of_step {m m₁ m' : Machine ω ι} {r : Except RuntimeError Unit}
    (h : RunsOn m₁ r m') (hstep : m.step = (.ok (), m₁)) : RunsOn m r m' := by
  cases h with
  | @last _ _ _ fuel answer other =>
    rw [← run_succ_of_ok hstep] at answer
    exact .last answer other
  | @again _ m₂ _ _ e fuel answer device more =>
    rw [← run_succ_of_ok hstep] at answer
    exact .again answer device more

/-- As long as no step fails under the policy to halt, the policy to report makes no difference. -/
theorem stepMany_report_of_halt {n : Nat} {m h : Machine ω ι} {xs : Array RuntimeError}
    (hsteps : stepMany n (m.under .halt xs) = (.ok (), h)) :
    ∃ m' : Machine ω ι, h = m'.under .halt xs ∧
      ∀ ys, stepMany n (m.under .report ys) = (.ok (), m'.under .report ys) := by
  induction n generalizing m with
  | zero =>
    obtain ⟨-, rfl⟩ := Prod.mk.inj hsteps
    exact ⟨m, rfl, fun ys ↦ rfl⟩
  | succ n ih =>
    obtain ⟨r, m₁, hhalt, hreport, -⟩ := exists_stepsTo m
    cases r with
    | error e =>
      rw [stepMany_succ_of_error (hhalt xs)] at hsteps
      cases hsteps
    | ok =>
      rw [stepMany_succ_of_ok (hhalt xs)] at hsteps
      obtain ⟨m', rfl, hmore⟩ := ih hsteps
      refine ⟨m', rfl, fun ys ↦ ?_⟩
      rw [stepMany_succ_of_ok (hreport ys), ← hmore]
      rfl

/-- A run that ends under the policy to halt, but not with an error of a device, ends in the same
way under the policy to report. -/
theorem run_report_of_other {fuel : Nat} {m h : Machine ω ι} {r : Except RuntimeError Unit}
    {xs : Array RuntimeError} (hrun : run fuel (m.under .halt xs) = some (r, h))
    (hr : deviceError? r = none) (ys : Array RuntimeError) :
    ∃ (m' : Machine ω ι) (fuel' : Nat), h = m'.under .halt xs ∧
      run fuel' (m.under .report ys) = some (r, m'.under .report ys) := by
  obtain ⟨n, h₁, hsteps, hend⟩ := exists_stepMany_of_run hrun
  obtain ⟨m₁, rfl, hreport⟩ := stepMany_report_of_halt hsteps
  have hgo := run_add_of_stepMany_ok (hreport ys)
  rcases hend with ⟨hm₁, rfl, rfl⟩ | ⟨hm₁, e, rfl, hstep⟩
  · have hterminated : (m₁.under .report ys).terminated = true := hm₁
    refine ⟨m₁, n + 0, rfl, ?_⟩
    rw [hgo]
    exact run_of_terminated hterminated 0
  · have hgoing : (m₁.under .report ys).terminated = false := hm₁
    obtain ⟨q, m', hhalt, hlast, -⟩ := exists_stepsTo m₁
    rw [hhalt] at hstep
    obtain ⟨rfl, rfl⟩ := Prod.mk.inj hstep
    have herror := hlast ys
    rw [withoutDeviceError_of_eq_none hr, hr, Option.toArray_none, Array.append_empty] at herror
    refine ⟨m', n + 1, rfl, ?_⟩
    rw [hgo]
    exact run_succ_of_error hgoing herror 0

/-- Where a run under the policy to halt ends with an error of a device, a run under the policy to
report goes on. -/
theorem run_report_of_device {fuel : Nat} {m h : Machine ω ι} {r : Except RuntimeError Unit}
    {e : RuntimeError} {xs : Array RuntimeError}
    (hrun : run fuel (m.under .halt xs) = some (r, h)) (hr : deviceError? r = some e)
    (ys : Array RuntimeError) :
    ∃ (m' : Machine ω ι) (k : Nat), h = m'.under .halt xs ∧
      ∀ more, run (k + more) (m.under .report ys) = run more (m'.under .report (ys.push e)) := by
  obtain ⟨n, h₁, hsteps, hend⟩ := exists_stepMany_of_run hrun
  obtain ⟨m₁, rfl, hreport⟩ := stepMany_report_of_halt hsteps
  have hgo := run_add_of_stepMany_ok (hreport ys)
  rcases hend with ⟨-, rfl, -⟩ | ⟨-, e', rfl, hstep⟩
  · cases hr
  · obtain ⟨q, m', hhalt, hlast, -⟩ := exists_stepsTo m₁
    rw [hhalt] at hstep
    obtain ⟨rfl, rfl⟩ := Prod.mk.inj hstep
    have hok := hlast ys
    rw [withoutDeviceError_of_eq_some hr, hr] at hok
    refine ⟨m', n + 1, rfl, fun more ↦ ?_⟩
    rw [Nat.add_assoc, Nat.add_comm 1, hgo, run_succ_of_ok hok]
    rfl

/-- A run that is made to go on after each failure ends like one run that reports the failures. -/
theorem RunsOn.run_report {m h : Machine ω ι} {r : Except RuntimeError Unit}
    {xs : Array RuntimeError} (hon : RunsOn (m.under .halt xs) r h) (ys : Array RuntimeError) :
    ∃ (m' : Machine ω ι) (fuel : Nat) (zs : Array RuntimeError), h = m'.under .halt xs ∧
      run fuel (m.under .report ys) = some (r, m'.under .report zs) := by
  generalize ha : m.under .halt xs = a at hon
  induction hon generalizing m ys with
  | last answer other =>
    subst ha
    obtain ⟨m', fuel', rfl, hrun⟩ := run_report_of_other answer other ys
    exact ⟨m', fuel', ys, rfl, hrun⟩
  | again answer device more ih =>
    subst ha
    obtain ⟨m₁, k, rfl, hgo⟩ := run_report_of_device answer device ys
    obtain ⟨m', fuel, zs, rfl, hrun⟩ := ih (ys.push _) rfl
    refine ⟨m', k + fuel, zs, rfl, ?_⟩
    rw [hgo, hrun]

/-- Steps that report failures can be made up for by a run that is made to go on after each. -/
theorem runsOn_of_stepMany_report {n : Nat} {m q : Machine ω ι} {ys : Array RuntimeError}
    (hsteps : stepMany n (m.under .report ys) = (.ok (), q)) (xs : Array RuntimeError) :
    ∃ (m' : Machine ω ι) (zs : Array RuntimeError), q = m'.under .report zs ∧
      ∀ {r h}, RunsOn (m'.under .halt xs) r h → RunsOn (m.under .halt xs) r h := by
  induction n generalizing m ys with
  | zero =>
    obtain ⟨-, rfl⟩ := Prod.mk.inj hsteps
    exact ⟨m, ys, rfl, id⟩
  | succ n ih =>
    obtain ⟨r, m₁, hhalt, hreport, -⟩ := exists_stepsTo m
    have hstep := hreport ys
    cases hr : deviceError? r with
    | some e =>
      -- the symbol failed: one machine goes on, the other has to be run again
      rw [withoutDeviceError_of_eq_some hr] at hstep
      rw [stepMany_succ_of_ok hstep] at hsteps
      obtain ⟨m', zs, rfl, hmore⟩ := ih hsteps
      obtain rfl := eq_error_of_deviceError? hr
      have hm : (m.under .halt xs).terminated = false := by
        refine terminated_eq_false_of_step (hhalt xs) fun ip hip ↦ ?_
        rw [hip] at hr
        cases hr
      exact ⟨m', zs, rfl, fun hon ↦ .again (run_succ_of_error hm (hhalt xs) 0) hr (hmore hon)⟩
    | none =>
      rw [withoutDeviceError_of_eq_none hr] at hstep
      cases r with
      | error e =>
        rw [stepMany_succ_of_error hstep] at hsteps
        cases hsteps
      | ok =>
        rw [stepMany_succ_of_ok hstep] at hsteps
        obtain ⟨m', zs, rfl, hmore⟩ := ih hsteps
        exact ⟨m', zs, rfl, fun hon ↦ (hmore hon).of_step (hhalt xs)⟩

/-- A run that reports failures ends like one that is made to go on after each of them. -/
theorem runsOn_of_run_report {fuel : Nat} {m q : Machine ω ι} {r : Except RuntimeError Unit}
    {ys : Array RuntimeError} (hrun : run fuel (m.under .report ys) = some (r, q))
    (xs : Array RuntimeError) :
    ∃ (m' : Machine ω ι) (zs : Array RuntimeError), q = m'.under .report zs ∧
      RunsOn (m.under .halt xs) r (m'.under .halt xs) := by
  obtain ⟨n, q₁, hsteps, hend⟩ := exists_stepMany_of_run hrun
  obtain ⟨m₁, zs, rfl, hon⟩ := runsOn_of_stepMany_report hsteps xs
  rcases hend with ⟨hm₁, rfl, rfl⟩ | ⟨hm₁, e, rfl, hstep⟩
  · have hterminated : (m₁.under .halt xs).terminated = true := hm₁
    exact ⟨m₁, zs, rfl, hon (.last (run_of_terminated hterminated 0) rfl)⟩
  · have hgoing : (m₁.under .halt xs).terminated = false := hm₁
    obtain ⟨r, m', hhalt, hreport, -⟩ := exists_stepsTo m₁
    rw [hreport] at hstep
    obtain ⟨hr, rfl⟩ := Prod.mk.inj hstep
    cases hdevice : deviceError? r with
    | some e' =>
      rw [withoutDeviceError_of_eq_some hdevice] at hr
      cases hr
    | none =>
      rw [withoutDeviceError_of_eq_none hdevice] at hr
      subst hr
      exact ⟨m', _, rfl, hon (.last (run_succ_of_error hgoing (hhalt xs) 0) hdevice)⟩

/-! ## Halting and reporting -/

/-- **The policies differ only in how failures surface.** Let one machine run under the policy to
halt and under the policy to report. After any number of steps, made on after every failure, the two
are alike; the errors of devices that the one gives are, in order, what the other reports, and as
many as the failures that are counted; and in every other result the two agree. If a run under the
policy to halt is made again after each error of a device, it ends as one run under the policy to
report does, and at a machine alike. -/
theorem halt_alike_report (m : Machine ω ι) :
    (∀ n,
      let halted := stepAll n (m.withPolicy .halt)
      let reported := stepAll n (m.withPolicy .report)
      Alike halted.2 reported.2 ∧
        reported.2.state.reports.toList =
          m.state.reports.toList ++ halted.1.filterMap deviceError? ∧
        halted.2.state.failures =
          m.state.failures + (halted.1.filterMap deviceError?).length ∧
        reported.1 = halted.1.map withoutDeviceError) ∧
      (∀ r h, RunsOn (m.withPolicy .halt) r h →
        ∃ fuel q, run fuel (m.withPolicy .report) = some (r, q) ∧ Alike h q) ∧
      ∀ fuel r q, run fuel (m.withPolicy .report) = some (r, q) →
        ∃ h, RunsOn (m.withPolicy .halt) r h ∧ Alike h q := by
  refine ⟨fun n ↦ ?_, fun r h hon ↦ ?_, fun fuel r q hrun ↦ ?_⟩
  · obtain ⟨rs, m', hhalt, hreport, hfailures⟩ := exists_stepAll_under n m
    rw [withPolicy, withPolicy, hhalt, hreport]
    exact ⟨alike_under m' _ _ _ _, Array.toList_append, hfailures, rfl⟩
  · obtain ⟨m', fuel, zs, rfl, hrun⟩ := hon.run_report m.state.reports
    exact ⟨fuel, _, hrun, alike_under m' _ _ _ _⟩
  · obtain ⟨m', zs, rfl, hon⟩ := runsOn_of_run_report hrun m.state.reports
    exact ⟨_, hon, alike_under m' _ _ _ _⟩

/-- On `+.` with an output that refuses every byte the last symbol fails. The machine that halts has
to be run a second time, only to find that the program has come to its end. -/
theorem halt_alike_report_last :
    let fault := FaultKind.brokenPipe.fault
    let m : Machine Refusal Queue :=
      { program := Program.ofString "+.", state := { output := some ⟨fault⟩ } }
    (stepAll 2 (m.withPolicy .report)).2.state.reports.toList = [.device 1 '.' fault] ∧
      ∃ h, run 2 (m.withPolicy .halt) = some (.error (.device 1 '.' fault), h) ∧
        RunsOn (m.withPolicy .halt) (.ok ()) h ∧
          ∃ fuel q, run fuel (m.withPolicy .report) = some (.ok (), q) ∧ Alike h q := by
  intro fault m
  obtain ⟨hsteps, hruns, -⟩ := halt_alike_report m
  have hfails : run 2 (m.withPolicy .halt) =
      some (.error (.device 1 '.' fault), (stepAll 2 (m.withPolicy .halt)).2) := by rfl
  have hon : RunsOn (m.withPolicy .halt) (.ok ()) (stepAll 2 (m.withPolicy .halt)).2 :=
    .again hfails rfl (.last (run_of_terminated (by rfl) 0) rfl)
  refine ⟨?_, _, hfails, hon, hruns _ _ hon⟩
  rw [(hsteps 2).2.1]
  rfl

end Machine

end Brainfuck
