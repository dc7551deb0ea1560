import Brainfuck.Proofs.CommandLine.Session
import Brainfuck.Proofs.Device.Output
import Brainfuck.Proofs.Machine.Errors
import Brainfuck.Proofs.Machine.Safety

/-!
# The output does not interfere

A program writes to its output device and learns nothing from it. Under the policy to report not
even a failure gets back: it is counted and put on the list of reports, and neither is ever looked
at by a step. So two machines that differ in their output devices, in what they count and in what
they report, make the same steps.

## What a device gets

Since the steps do not depend on the device, each `.` offers the same byte to every device. A
collector keeps all of them, and any other device keeps what it accepts. One relation carries both
facts through a run: the machines agree but for their output, and what the one has accepted is a
sublist of what the other has collected.
-/

namespace Brainfuck

open OutputDevice

/-! ## States -/

/-- Two states agree in all that matters to a program. Their output devices may be of any types, and
failures that were counted and reported may differ too. -/
structure State.AgreeButOutput {ω ω' ι : Type} (s : State ω ι) (s' : State ω' ι) : Prop where
  tape : s.tape = s'.tape
  head : s.head = s'.head
  input : s.input = s'.input
  policy : s.policy = s'.policy

namespace State

variable {ω ω' ι : Type} {s : State ω ι} {s' : State ω' ι}

theorem AgreeButOutput.cell (h : s.AgreeButOutput s') : s.cell = s'.cell := by
  rw [State.cell, State.cell, h.tape, h.head]

variable [OutputDevice ω] [OutputDevice ω'] [InputDevice ι]

theorem AgreeButOutput.write (h : s.AgreeButOutput s') (i : Nat) :
    (s.write i).2.AgreeButOutput (s'.write i).2 := by
  obtain ⟨htape, hhead, -, hinput⟩ := write_snd s i
  obtain ⟨htape', hhead', -, hinput'⟩ := write_snd s' i
  refine ⟨?_, ?_, ?_, ?_⟩
  · rw [htape, htape', h.tape]
  · rw [hhead, hhead', h.head]
  · rw [hinput, hinput', h.input]
  · exact (exec_policy s i (some .output)).trans
      (h.policy.trans (exec_policy s' i (some .output)).symm)

theorem AgreeButOutput.read (h : s.AgreeButOutput s') (i : Nat) :
    (s.read i).2.AgreeButOutput (s'.read i).2 := by
  have hpolicy : (s.read i).2.policy = (s'.read i).2.policy :=
    (exec_policy s i (some .input)).trans (h.policy.trans (exec_policy s' i (some .input)).symm)
  obtain ⟨htape, hhead, hinput, -⟩ := h
  cases hd : s.input with
  | none =>
    have hd' : s'.input = none := hinput.symm.trans hd
    simp only [State.read, hd, hd'] at hpolicy ⊢
    exact ⟨htape, hhead, hinput, hpolicy⟩
  | some d =>
    have hd' : s'.input = some d := hinput.symm.trans hd
    rcases hpoll : InputDevice.poll d with ⟨f | b, d₁⟩
    · simp only [State.read, hd, hd', hpoll] at hpolicy ⊢
      obtain ⟨htape₁, hhead₁, -, hinput₁⟩ :=
        fail_snd { s with input := some d₁ } (.device i Command.input.toChar f)
      obtain ⟨htape₁', hhead₁', -, hinput₁'⟩ :=
        fail_snd { s' with input := some d₁ } (.device i Command.input.toChar f)
      refine ⟨?_, ?_, ?_, hpolicy⟩
      · rw [htape₁, htape₁', htape]
      · rw [hhead₁, hhead₁', hhead]
      · rw [hinput₁, hinput₁']
    · simp only [State.read, hd, hd', hpoll, store] at hpolicy ⊢
      exact ⟨by rw [htape, hhead], hhead, rfl, hpolicy⟩

/-- No symbol brings anything from the output device into the rest of the state. -/
theorem AgreeButOutput.exec (h : s.AgreeButOutput s') (i : Nat) (c : Option Command) :
    (s.exec i c).2.AgreeButOutput (s'.exec i c).2 := by
  cases c with
  | none => exact h
  | some op =>
    obtain ⟨htape, hhead, hinput, hpolicy⟩ := h
    cases op with
    | right => exact ⟨htape, congrArg (· + 1) hhead, hinput, hpolicy⟩
    | left => exact ⟨htape, congrArg (· - 1) hhead, hinput, hpolicy⟩
    | increment => exact ⟨by simp only [State.exec, htape, hhead], hhead, hinput, hpolicy⟩
    | decrement => exact ⟨by simp only [State.exec, htape, hhead], hhead, hinput, hpolicy⟩
    | output => exact AgreeButOutput.write ⟨htape, hhead, hinput, hpolicy⟩ i
    | input => exact AgreeButOutput.read ⟨htape, hhead, hinput, hpolicy⟩ i
    | loopStart => exact ⟨htape, hhead, hinput, hpolicy⟩
    | loopEnd => exact ⟨htape, hhead, hinput, hpolicy⟩

end State

/-! ## Machines -/

/-- Two machines are at the same point of the same program, and their states agree but for the
output. -/
structure Machine.AgreeButOutput {ω ω' ι : Type} (m : Machine ω ι) (m' : Machine ω' ι) : Prop where
  program : m.program = m'.program
  ip : m.ip = m'.ip
  steps : m.steps = m'.steps
  state : m.state.AgreeButOutput m'.state

namespace Machine

variable {ω ω' ι : Type} {m : Machine ω ι} {m' : Machine ω' ι}

/-- The machine with another output device, or with none. -/
def withOutput (m : Machine ω ι) (output : Option ω') : Machine ω' ι :=
  { program := m.program
    ip := m.ip
    steps := m.steps
    state := { m.state with output } }

theorem agreeButOutput_withOutput (m : Machine ω ι) (output : Option ω') :
    m.AgreeButOutput (m.withOutput output) :=
  ⟨rfl, rfl, rfl, rfl, rfl, rfl, rfl⟩

theorem AgreeButOutput.command? (h : m.AgreeButOutput m') : m.command? = m'.command? := by
  rw [Machine.command?, Machine.command?, h.program, h.ip]

theorem AgreeButOutput.target (h : m.AgreeButOutput m') : m.target = m'.target := by
  have hcell : m.cell = m'.cell := h.state.cell
  rw [Machine.target, Machine.target, h.command?, h.program, h.ip, hcell]

variable [OutputDevice ω] [OutputDevice ω'] [InputDevice ι]

theorem AgreeButOutput.step (h : m.AgreeButOutput m') :
    m.step.2.AgreeButOutput m'.step.2 := by
  cases htarget : m.target with
  | error e =>
    rw [step_of_target_error htarget, step_of_target_error (h.target.symm.trans htarget)]
    exact h
  | ok next =>
    rw [step_of_target_ok htarget, step_of_target_ok (h.target.symm.trans htarget),
      ← h.command?, ← h.ip]
    exact ⟨h.program, rfl, congrArg (· + 1) h.steps, h.state.exec m.ip m.command?⟩

/-- Under the policy to report a step gives an error only where control has nowhere to go, and that
does not depend on the output. -/
theorem AgreeButOutput.step_fst (h : m.AgreeButOutput m') (hpolicy : m.state.policy = .report) :
    m.step.1 = m'.step.1 := by
  have hpolicy' := h.state.policy.symm.trans hpolicy
  cases htarget : m.target with
  | error e =>
    rw [step_of_target_error htarget, step_of_target_error (h.target.symm.trans htarget)]
  | ok next =>
    rw [step_of_target_ok htarget, step_of_target_ok (h.target.symm.trans htarget),
      State.exec_fst_of_report hpolicy, State.exec_fst_of_report hpolicy']

/-- Machines that report failures and agree but for their output run in lockstep. -/
theorem lockstep_agreeButOutput :
    Lockstep fun (m : Machine ω ι) (m' : Machine ω' ι) ↦
      m.AgreeButOutput m' ∧ m.state.policy = .report where
  terminated := by
    rintro m m' ⟨h, -⟩
    rw [terminated, terminated, h.ip, h.program]
  result := fun ⟨h, hpolicy⟩ ↦ h.step_fst hpolicy
  step := fun ⟨h, hpolicy⟩ ↦ ⟨h.step, (step_policy _).trans hpolicy⟩

/-! ## What a device gets -/

/-- A device has accepted, behind the bytes in `start`, some of the bytes that a collector has
collected at the same point of the same program. -/
structure Sifts (start : List UInt8) (m : Machine ω ι) (m' : Machine Collector ι) : Prop where
  agree : m.AgreeButOutput m' ∧ m.state.policy = .report
  accepted : ∃ d c got, m.state.output = some d ∧ m'.state.output = some c ∧
    (accepted d).toList = start ++ got ∧ got.Sublist c.bytes.toList

theorem Sifts.step [LawfulOutputDevice ω] {start : List UInt8} {m' : Machine Collector ι}
    (h : m.Sifts start m') : m.step.2.Sifts start m'.step.2 := by
  obtain ⟨⟨hagree, hpolicy⟩, d, c, got, hd, hc, haccepted, hsub⟩ := h
  refine ⟨lockstep_agreeButOutput.step ⟨hagree, hpolicy⟩, ?_⟩
  rw [step_output, step_output, ← hagree.command?]
  by_cases hop : m.command? = some .output
  · have hcell : m'.cell = m.cell := hagree.state.cell.symm
    have hc' : (m'.state.output.map fun c ↦ (emit m'.cell c).2) = some ⟨c.bytes.push m.cell⟩ := by
      rw [hc, hcell]
      rfl
    rw [if_pos hop, if_pos hop, hd, hc']
    rcases LawfulOutputDevice.accepted_emit m.cell d with hsame | hpush
    · refine ⟨_, _, got, rfl, rfl, ?_, ?_⟩
      · rw [hsame, haccepted]
      · rw [Array.toList_push]
        exact hsub.trans (List.sublist_append_left _ _)
    · refine ⟨_, _, got ++ [m.cell], rfl, rfl, ?_, ?_⟩
      · rw [hpush, Array.toList_push, haccepted, List.append_assoc]
      · rw [Array.toList_push]
        exact hsub.append_right _
  · rw [if_neg hop, if_neg hop]
    exact ⟨d, c, got, hd, hc, haccepted, hsub⟩

theorem Sifts.lockstep [LawfulOutputDevice ω] {start : List UInt8} :
    Lockstep (Sifts start : Machine ω ι → Machine Collector ι → Prop) where
  terminated h := lockstep_agreeButOutput.terminated h.agree
  result h := lockstep_agreeButOutput.result h.agree
  step h := h.step

omit [InputDevice ι] in
theorem sifts_collector {d : ω} (hd : m.state.output = some d)
    (hpolicy : m.state.policy = .report) :
    m.Sifts (accepted d).toList (m.withOutput (some ({} : Collector))) :=
  ⟨⟨agreeButOutput_withOutput m _, hpolicy⟩, d, {}, [], hd, rfl, (List.append_nil _).symm,
    List.Sublist.refl _⟩

end Machine

/-! ## Sessions -/

namespace CommandLine

variable {ω ι : Type}

/-- The request with the flag that says that the program is not to write. -/
def Request.withoutOutput (r : Request) : Request :=
  { r with flags := { r.flags with noOutput := true } }

/-- The launch with no connection to the output. -/
def Launch.withoutOutput (l : Launch) : Launch :=
  { l with settings := { l.settings with output := false } }

/-- The flag disconnects the output and does nothing else. -/
theorem Launch.ofRequest_withoutOutput (name : String) (filter : Bool → Filter)
    (var : String → Option String) (read : String → Except FileError String) (r : Request) :
    ofRequest name filter var read r.withoutOutput =
      (ofRequest name filter var read r).map withoutOutput := by
  cases hcode : r.source.load read with
  | error e => simp only [ofRequest, Request.withoutOutput, hcode, Except.map]
  | ok code =>
    simp only [ofRequest, hcode, Except.map, settingsFor, resolveSettings, Settings.withFlags,
      Request.withoutOutput, Launch.withoutOutput, Bool.not_true, Bool.and_false]

theorem Launch.machine_agreeButOutput (l : Launch) (output : ω) (input : Option ι) :
    (l.machine output input).AgreeButOutput (l.withoutOutput.machine output input) :=
  ⟨rfl, rfl, rfl, rfl, rfl, rfl, rfl⟩

variable [OutputDevice ω] [InputDevice ι]

/-- Without its output a session that reports failures stops at the same point, and in the same
way. Its log may differ: it says what the settings are, and which failures are reported. -/
theorem Launch.followFrom_withoutOutput {l : Launch} (hpolicy : l.settings.policy = .report)
    {interrupted : Machine ω ι → Bool}
    (hinterrupted : ∀ m m', m.AgreeButOutput m' → interrupted m = interrupted m')
    (output : ω) (input : Option ι) (log log' : String) (fuel : Nat) :
    Option.Rel (fun x x' ↦ x.1 = x'.1 ∧ x.2.2.AgreeButOutput x'.2.2)
      (l.followFrom interrupted fuel log (l.machine output input))
      (l.withoutOutput.followFrom interrupted fuel log'
        (l.withoutOutput.machine output input)) := by
  have hmachine := l.machine_agreeButOutput output input
  rw [followFrom, followFrom]
  refine Option.Rel.imp (follow_rel (S := fun _ _ ↦ True) Machine.lockstep_agreeButOutput
    (fun m m' h ↦ hinterrupted m m' h.1) (fun _ _ _ _ _ _ ↦ trivial) ⟨hmachine, hpolicy⟩
    trivial fuel) ?_
  rintro x x' ⟨hstop, -, hagree, -⟩
  exact ⟨hstop, hagree⟩

/-- Without its output a session that reports failures exits with the same code. -/
theorem Launch.session_withoutOutput {l : Launch} (hpolicy : l.settings.policy = .report)
    {interrupted : Machine ω ι → Bool}
    (hinterrupted : ∀ m m', m.AgreeButOutput m' → interrupted m = interrupted m')
    (attached : Bool) (output : ω) (input : Except Fault ι) (ready : Option Bool) (fuel : Nat) :
    (l.session attached output input ready interrupted fuel).map (·.exit.code) =
      (l.withoutOutput.session attached output input ready interrupted fuel).map
        (·.exit.code) := by
  have hrun (device : Option ι) := l.followFrom_withoutOutput hpolicy hinterrupted output device
    (l.preface attached ready) (l.withoutOutput.preface attached ready) fuel
  match attached, input with
  | false, _ =>
    rw [session, session, start, start, Option.map_map, Option.map_map]
    exact (hrun none).map_eq fun x x' hx ↦ conclude_code hx.1
  | true, .ok d =>
    rw [session_ok, session_ok, Option.map_map, Option.map_map]
    exact (hrun (some d)).map_eq fun x x' hx ↦ conclude_code hx.1
  | true, .error f =>
    rw [session, session, start, start, Option.map_some, Option.map_some, unopened, unopened]

end CommandLine

/-! ## Noninterference -/

open Machine CommandLine

/-- **The output does not interfere.** Take two machines that report failures and differ at most in
their output devices, which may be missing, and in the failures they have counted and reported.
After any number of steps they agree but for these, and so do the results of all steps and of runs.
The bytes that a device has accepted are, behind those it had accepted before, some of the bytes
that a collector in its place would have got in the same steps, in the same order. In particular the
flag that disconnects the output only does that, and a session that reports failures stops with it
at the same step, in the same way and with the same exit code as without, also if its input cannot
be opened. -/
theorem output_does_not_interfere {ω ω' ι : Type} [OutputDevice ω] [OutputDevice ω']
    [InputDevice ι] {m : Machine ω ι} {m' : Machine ω' ι} (h : m.AgreeButOutput m')
    (hpolicy : m.state.policy = .report) :
    (∀ n, (stepAll n m).1 = (stepAll n m').1 ∧
        (stepAll n m).2.AgreeButOutput (stepAll n m').2) ∧
      (∀ fuel, Option.Rel (fun x x' ↦ x.1 = x'.1 ∧ x.2.AgreeButOutput x'.2)
        (Machine.run fuel m) (Machine.run fuel m')) ∧
      (∀ [LawfulOutputDevice ω] n d, m.state.output = some d →
        ∃ d' c got, (stepAll n m).2.state.output = some d' ∧
          (stepAll n (m.withOutput (some ({} : Collector)))).2.state.output = some c ∧
          (accepted d').toList = (accepted d).toList ++ got ∧ got.Sublist c.bytes.toList) ∧
      (∀ name filter var read r, Launch.ofRequest name filter var read (Request.withoutOutput r) =
        (Launch.ofRequest name filter var read r).map Launch.withoutOutput) ∧
      ∀ (l : Launch) (interrupted : Machine ω ι → Bool), l.settings.policy = .report →
        (∀ m₁ m₂, m₁.AgreeButOutput m₂ → interrupted m₁ = interrupted m₂) →
        ∀ (output : ω) fuel,
          (∀ (input : Option ι) log log',
            Option.Rel (fun x x' ↦ x.1 = x'.1 ∧ x.2.2.AgreeButOutput x'.2.2)
              (l.followFrom interrupted fuel log (l.machine output input))
              (l.withoutOutput.followFrom interrupted fuel log'
                (l.withoutOutput.machine output input))) ∧
            ∀ (input : Except Fault ι) ready,
              (l.run output input ready interrupted fuel).map (·.exit.code) =
                (l.withoutOutput.run output input ready interrupted fuel).map (·.exit.code) := by
  refine ⟨fun n ↦ ?_, fun fuel ↦ ?_, fun n d hd ↦ ?_, Launch.ofRequest_withoutOutput,
    fun l interrupted hreport hinterrupted output fuel ↦ ⟨fun input log log' ↦ ?_,
      fun input ready ↦ ?_⟩⟩
  · obtain ⟨hresults, hagree, -⟩ := lockstep_agreeButOutput.stepAll ⟨h, hpolicy⟩ n
    exact ⟨hresults, hagree⟩
  · exact (lockstep_agreeButOutput.run ⟨h, hpolicy⟩ fuel).imp fun x x' hx ↦ ⟨hx.1, hx.2.1⟩
  · obtain ⟨-, -, hsifts⟩ := Sifts.lockstep.stepAll (sifts_collector hd hpolicy) n
    exact hsifts
  · exact l.followFrom_withoutOutput hreport hinterrupted output input log log' fuel
  · exact l.session_withoutOutput hreport hinterrupted l.reads output input ready fuel

/-- On `.+.+.` one machine writes to a channel that takes nothing at first and then fails to flush,
and another to a collector. The channel gets two of the three bytes, one of them in spite of the
failure. -/
theorem output_does_not_interfere_unflushed :
    let m : Machine Writer Queue :=
      { program := Program.ofString ".+.+."
        state :=
          { output := some
              { writes := [.nothing, .fault FaultKind.interrupted.fault, .taken]
                flushes := [some FaultKind.brokenPipe.fault] } } }
    let m' : Machine Collector Queue := m.withOutput (some {})
    let l : Launch := { name := "bfvm", code := ".+.+.", settings := {}, filter := fun _ ↦ true }
    m.AgreeButOutput m' ∧ m.state.policy = .report ∧
      (stepAll 5 m).1 = (stepAll 5 m').1 ∧ (stepAll 5 m).2.AgreeButOutput (stepAll 5 m').2 ∧
      (stepAll 5 m).2.state.failures = 2 ∧
      (∃ d c, (stepAll 5 m).2.state.output = some d ∧ (stepAll 5 m').2.state.output = some c ∧
        d.bytes = #[1, 2] ∧ c.bytes = #[0, 1, 2] ∧ [1, 2].Sublist c.bytes.toList) ∧
      l.settings.policy = .report ∧
      ∀ output input, (l.run (ω := Writer) (ι := Queue) output input none (fun _ ↦ false) 5).map
          (·.exit.code) =
        (l.withoutOutput.run output input none (fun _ ↦ false) 5).map (·.exit.code) := by
  intro m m' l
  have h : m.AgreeButOutput m' := agreeButOutput_withOutput m _
  obtain ⟨hsteps, -, hsifts, -, hsession⟩ := output_does_not_interfere h rfl
  obtain ⟨hresults, hagree⟩ := hsteps 5
  refine ⟨h, rfl, hresults, hagree, rfl, ?_, rfl, fun output input ↦
    (hsession l (fun _ ↦ false) rfl (fun _ _ _ ↦ rfl) output 5).2 input none⟩
  obtain ⟨d, c, got, hd, hc, hgot, hsub⟩ := hsifts 5 _ rfl
  have hd' : ∃ d, (stepAll 5 m).2.state.output = some d ∧ d.bytes = #[1, 2] := ⟨_, rfl, rfl⟩
  have hc' : ∃ c, (stepAll 5 m').2.state.output = some c ∧ c.bytes = #[0, 1, 2] := ⟨_, rfl, rfl⟩
  obtain ⟨d', hd', hbytes⟩ := hd'
  obtain ⟨c', hc', hcollected⟩ := hc'
  obtain rfl : d' = d := Option.some.inj (hd'.symm.trans hd)
  obtain rfl : c' = c := Option.some.inj (hc'.symm.trans hc)
  obtain rfl : [1, 2] = got := (congrArg Array.toList hbytes).symm.trans hgot
  exact ⟨d', c', hd, hc, hbytes, hcollected, hsub⟩

end Brainfuck
