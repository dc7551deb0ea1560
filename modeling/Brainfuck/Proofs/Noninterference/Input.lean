import Brainfuck.Proofs.CommandLine.Session
import Brainfuck.Proofs.Machine.Errors

/-!
# What a program can know of its input

A program finds out about its input device by polling it, and only `,` does that. So what a machine
does up to some point depends on the answers to the polls it has made by then, and on nothing else
about the device: not on the answers that are still to come, nor on whether there is a device at all
as long as it has not been polled.

## Counting polls

Two devices agree up to some number of polls. Each `,` that is executed uses up one of them, and
every other step leaves the device alone. This is the induction; the number that is left is carried
along, and the steps that poll are counted from the machine they start from.
-/

namespace Brainfuck

open InputDevice

/-! ## Devices -/

section

variable {ι ι' : Type} [InputDevice ι] [InputDevice ι']

/-- Two input devices, either of which may be missing, cannot be told apart by `k` polls. -/
def InputDevice.AgreeUpTo (k : Nat) : Option ι → Option ι' → Prop
  | some d, some d' => (polls k d).1 = (polls k d').1
  | none, none => True
  | _, _ => k = 0

/-- Any two devices agree as long as they are not polled. -/
theorem InputDevice.agreeUpTo_zero (x : Option ι) (x' : Option ι') : AgreeUpTo 0 x x' := by
  cases x with
  | none =>
    cases x' with
    | none => trivial
    | some d' => exact rfl
  | some d =>
    cases x' with
    | none => exact rfl
    | some d' => exact rfl

theorem InputDevice.AgreeUpTo.refl (k : Nat) (x : Option ι) : AgreeUpTo k x x := by
  cases x with
  | none => trivial
  | some d => exact rfl

/-- Devices that agree up to one more poll are both missing, or they give the same answer and agree
afterwards. -/
theorem InputDevice.AgreeUpTo.succ {k : Nat} {x : Option ι} {x' : Option ι'}
    (h : AgreeUpTo (k + 1) x x') :
    (x = none ∧ x' = none) ∨
      ∃ d d', x = some d ∧ x' = some d' ∧ (poll d).1 = (poll d').1 ∧
        AgreeUpTo k (some (poll d).2) (some (poll d').2) := by
  cases x with
  | none =>
    cases x' with
    | none => exact Or.inl ⟨rfl, rfl⟩
    | some d' => cases h
  | some d =>
    cases x' with
    | none => cases h
    | some d' =>
      obtain ⟨hfirst, hrest⟩ := List.cons.inj h
      exact Or.inr ⟨d, d', rfl, rfl, hfirst, hrest⟩

end

/-! ## States -/

namespace State

variable {ω ι ι' : Type}

/-- The state with another input device, or with none. -/
def withInput (s : State ω ι) (input : Option ι') : State ω ι' :=
  { s with input }

theorem fail_withInput (s : State ω ι) (x : Option ι') (e : RuntimeError) :
    (s.withInput x).fail e = ((s.fail e).1, (s.fail e).2.withInput x) := by
  have hpolicy : (s.withInput x).policy = s.policy := rfl
  rw [fail, fail, hpolicy]
  cases s.policy with
  | report => rfl
  | halt => rfl

theorem write_withInput [OutputDevice ω] (s : State ω ι) (x : Option ι') (i : Nat) :
    (s.withInput x).write i = ((s.write i).1, (s.write i).2.withInput x) := by
  cases hd : s.output with
  | none => simp only [write, withInput, hd]
  | some d =>
    rcases hemit : OutputDevice.emit s.cell d with ⟨f | _, d₁⟩
    · have hwrite : s.write i =
          fail { s with output := some d₁ } (.device i Command.output.toChar f) := by
        simp only [write, hd, hemit]
      rw [hwrite, ← fail_withInput]
      simp only [write, withInput, cell, hd] at hemit ⊢
      rw [hemit]
    · have hwrite : s.write i = (.ok (), { s with output := some d₁ }) := by
        simp only [write, hd, hemit]
      rw [hwrite]
      simp only [write, withInput, cell, hd] at hemit ⊢
      rw [hemit]

variable [InputDevice ι] [InputDevice ι'] {s : State ω ι}

/-- A symbol that polls takes notice of the answer only. -/
theorem read_withInput {d : ι} {d' : ι'} (hd : s.input = some d) (h : (poll d).1 = (poll d').1)
    (i : Nat) :
    (s.withInput (some d')).read i = ((s.read i).1, (s.read i).2.withInput (some (poll d').2)) ∧
      (s.read i).2.input = some (poll d).2 := by
  rcases hpoll : poll d with ⟨r, d₁⟩
  rcases hpoll' : poll d' with ⟨r', d₁'⟩
  rw [hpoll, hpoll'] at h
  obtain rfl : r = r' := h
  cases r with
  | ok b => simp only [read, withInput, store, hd, hpoll, hpoll', and_self]
  | error f =>
    have hread : s.read i =
        fail { s with input := some d₁ } (.device i Command.input.toChar f) := by
      simp only [read, hd, hpoll]
    rw [hread, ← fail_withInput, (fail_snd _ _).2.2.2]
    simp only [read, withInput, hpoll', and_self]

/-- A symbol that does not poll takes no notice of the input device. -/
theorem exec_withInput_of_ne [OutputDevice ω] {c : Option Command} (hc : c ≠ some .input)
    (x : Option ι') (i : Nat) :
    (s.withInput x).exec i c = ((s.exec i c).1, (s.exec i c).2.withInput x) ∧
      (s.exec i c).2.input = s.input := by
  cases c with
  | none => exact ⟨rfl, rfl⟩
  | some op =>
    cases op with
    | input => exact absurd rfl hc
    | output => exact ⟨write_withInput s x i, (write_snd s i).2.2.2⟩
    | _ => exact ⟨rfl, rfl⟩

end State

/-! ## Machines -/

namespace Machine

variable {ω ι ι' : Type} {m : Machine ω ι}

/-- The machine with another input device, or with none. -/
def withInput (m : Machine ω ι) (input : Option ι') : Machine ω ι' :=
  { program := m.program
    ip := m.ip
    steps := m.steps
    state := m.state.withInput input }

@[simp] theorem withInput_self (m : Machine ω ι) : m.withInput m.state.input = m := rfl

/-- Whether the next step executes a `,`. -/
def readsNext (m : Machine ω ι) : Bool := m.command? = some .input

variable [OutputDevice ω] [InputDevice ι] [InputDevice ι']

/-! ## One step -/

/-- A step with another input device executes the same symbol. -/
theorem step_withInput {x y : Option ι'} {next : Nat} (htarget : m.target = .ok next)
    (hexec : (m.state.withInput x).exec m.ip m.command? =
      ((m.state.exec m.ip m.command?).1, (m.state.exec m.ip m.command?).2.withInput y)) :
    (m.withInput x).step = (m.step.1, m.step.2.withInput y) := by
  have hstep : (m.withInput x).step =
      (((m.state.withInput x).exec m.ip m.command?).1,
        ⟨m.program, next, m.steps + 1, ((m.state.withInput x).exec m.ip m.command?).2⟩) :=
    step_of_target_ok htarget
  rw [hstep, hexec, step_of_target_ok htarget]
  rfl

theorem step_withInput_of_ne (h : m.command? ≠ some .input) (x : Option ι') :
    (m.withInput x).step = (m.step.1, m.step.2.withInput x) ∧
      m.step.2.state.input = m.state.input := by
  cases htarget : m.target with
  | error e =>
    have htarget' : (m.withInput x).target = .error e := htarget
    rw [step_of_target_error htarget, step_of_target_error htarget']
    exact ⟨rfl, rfl⟩
  | ok next =>
    obtain ⟨hexec, hinput⟩ := State.exec_withInput_of_ne (s := m.state) h x m.ip
    refine ⟨step_withInput htarget hexec, ?_⟩
    rw [step_of_target_ok htarget]
    exact hinput

/-- A `,` uses up one of the polls that two devices agree on. -/
theorem step_withInput_of_input {k : Nat} {x : Option ι'} (h : m.command? = some .input)
    (hagree : AgreeUpTo (k + 1) m.state.input x) :
    (m.withInput x).step = (m.step.1, m.step.2.withInput (x.map fun d ↦ (poll d).2)) ∧
      AgreeUpTo k m.step.2.state.input (x.map fun d ↦ (poll d).2) := by
  have htarget : m.target = .ok (m.ip + 1) := target_of_device h (Or.inr rfl)
  rcases hagree.succ with ⟨hnone, rfl⟩ | ⟨d, d', hd, rfl, hanswer, hrest⟩
  · have hread : m.state.read m.ip = (.ok (), m.state) := by
      rw [State.read, hnone]
    refine ⟨step_withInput htarget ?_, ?_⟩
    · rw [h]
      exact congrArg (fun y ↦ (y.1, y.2.withInput none)) hread.symm
    · rw [step_of_target_ok htarget, h]
      show AgreeUpTo k (m.state.read m.ip).2.input none
      rw [hread, hnone]
      trivial
  · obtain ⟨hread, hinput⟩ := State.read_withInput hd hanswer m.ip
    refine ⟨step_withInput htarget ?_, ?_⟩
    · rw [h]
      exact hread
    · rw [step_of_target_ok htarget, h]
      show AgreeUpTo k (m.state.read m.ip).2.input (some (poll d').2)
      rw [hinput]
      exact hrest

/-! ## Many steps -/

/-- As long as a machine polls at most as often as two devices agree, it cannot tell them apart. -/
theorem stepAll_withInput {k n : Nat} {x : Option ι'} (hagree : AgreeUpTo k m.state.input x)
    (hpolls : countSteps readsNext n m ≤ k) :
    stepAll n (m.withInput x) =
      ((stepAll n m).1,
        (stepAll n m).2.withInput (x.map fun d ↦ (polls (countSteps readsNext n m) d).2)) := by
  induction n generalizing k m x with
  | zero =>
    rw [countSteps]
    cases x with
    | none => rfl
    | some d => rfl
  | succ n ih =>
    by_cases h : m.command? = some .input
    · have hcount : countSteps readsNext (n + 1) m = countSteps readsNext n m.step.2 + 1 :=
        countSteps_succ_of_pos (decide_eq_true h) n
      rw [hcount] at hpolls ⊢
      cases k with
      | zero => exact absurd hpolls (Nat.not_succ_le_zero _)
      | succ k =>
        obtain ⟨hstep, hagree₁⟩ := step_withInput_of_input h hagree
        rw [stepAll_succ, stepAll_succ, hstep, ih hagree₁ (Nat.le_of_succ_le_succ hpolls),
          Option.map_map]
        rfl
    · have hcount : countSteps readsNext (n + 1) m = countSteps readsNext n m.step.2 :=
        countSteps_succ_of_neg (decide_eq_false h) n
      rw [hcount] at hpolls ⊢
      obtain ⟨hstep, hinput⟩ := step_withInput_of_ne h x
      rw [← hinput] at hagree
      rw [stepAll_succ, stepAll_succ, hstep, ih hagree hpolls]

/-- The input device is polled as often as a `,` is executed. -/
theorem stepAll_input (n : Nat) (m : Machine ω ι) :
    (stepAll n m).2.state.input =
      m.state.input.map fun d ↦ (polls (countSteps readsNext n m) d).2 := by
  have hself := stepAll_withInput (AgreeUpTo.refl _ m.state.input)
    (Nat.le_refl (countSteps readsNext n m))
  rw [withInput_self] at hself
  exact congrArg (fun y ↦ y.2.state.input) hself

/-! ## Programs that never read -/

theorem countSteps_readsNext_eq_zero (h : Command.input.toChar ∉ m.program.toList) (n : Nat) :
    countSteps readsNext n m = 0 := by
  induction n generalizing m with
  | zero => rfl
  | succ n ih =>
    rw [countSteps_succ_of_neg (decide_eq_false (command?_ne_of_not_mem h))]
    apply ih
    rw [step_program]
    exact h

/-- A machine whose program never reads runs in lockstep with itself on any other input. -/
theorem lockstep_withInput (x : Option ι') :
    Lockstep fun (m : Machine ω ι) (m' : Machine ω ι') ↦
      Command.input.toChar ∉ m.program.toList ∧ m' = m.withInput x where
  terminated := by
    rintro m m' ⟨-, rfl⟩
    rfl
  result := by
    rintro m m' ⟨h, rfl⟩
    rw [(step_withInput_of_ne (command?_ne_of_not_mem h) x).1]
  step := by
    rintro m m' ⟨h, rfl⟩
    rw [(step_withInput_of_ne (command?_ne_of_not_mem h) x).1, step_program]
    exact ⟨h, rfl⟩

end Machine

/-! ## Sessions -/

namespace CommandLine

variable {ω ι ι' : Type}

/-- What a session concludes does not depend on the input device. -/
theorem Launch.conclude_withInput (l : Launch) (stop : Stop) (log : String) (m : Machine ω ι)
    (x : Option ι') :
    (l.conclude (stop, log, m.withInput x)).exit = (l.conclude (stop, log, m)).exit := by
  cases stop with
  | interrupted => rfl
  | finished result => rfl

variable [OutputDevice ω] [InputDevice ι] [InputDevice ι']

/-- What a session logs about a step that does not poll does not depend on the input device. -/
theorem loggedStep_withInput {m : Machine ω ι} (h : m.command? ≠ some .input) (x : Option ι')
    (f : Filter) (jumps : Bool) (reported : Nat) (log : String) :
    (loggedStep f jumps reported log (m.withInput x)).2.1 =
      (loggedStep f jumps reported log m).2.1 := by
  have hjump : jumpEvent (m.withInput x) = jumpEvent m := rfl
  rw [loggedStep, loggedStep, hjump, (Machine.step_withInput_of_ne h x).1]
  split
  · rfl
  · rfl

namespace Launch

/-- The machine of a launch with the input connected whenever the settings ask for it, whether or
not the program has a command that reads. -/
def connected (l : Launch) (output : ω) (input : ι) : Machine ω ι :=
  l.machine output (if l.settings.input then some input else none)

/-- To leave the input unconnected where the program has no command that reads changes nothing but
the input that is left. -/
theorem followFrom_connected (l : Launch) {interrupted : Machine ω ι → Bool}
    (hinterrupted : ∀ (m : Machine ω ι) (x : Option ι), interrupted (m.withInput x) = interrupted m)
    (output : ω) (input : ι) (fuel : Nat) (log : String) :
    Option.Rel (fun y y' ↦ y.1 = y'.1 ∧ y.2.1 = y'.2.1 ∧ ∃ x : Option ι, y'.2.2 = y.2.2.withInput x)
      (l.followFrom interrupted fuel log (l.machine output (if l.reads then some input else none)))
      (l.followFrom interrupted fuel log (l.connected output input)) := by
  by_cases hreads : Command.input.toChar ∈ l.code.toList
  · -- the program reads, and the input is connected in either case
    have hinput : l.reads = l.settings.input := by
      rw [reads, List.contains_iff_mem.2 hreads, Bool.and_true]
    rw [hinput, ← connected]
    cases hfollow : l.followFrom interrupted fuel log (l.connected output input) with
    | none => exact .none
    | some y => exact .some ⟨rfl, rfl, y.2.2.state.input, rfl⟩
  · have hprogram (x : Option ι) : Command.input.toChar ∉ (l.machine output x).program.toList := by
      rw [machine, Program.toList_ofString]
      exact hreads
    have hlog : ∀ (m m' : Machine ω ι) (log log' : String),
        (Command.input.toChar ∉ m.program.toList ∧
          m' = m.withInput (if l.settings.input then some input else none)) → log = log' →
        (loggedStep l.filter l.filter.showsJumps m.state.reports.size log m).2.1 =
          (loggedStep l.filter l.filter.showsJumps m'.state.reports.size log' m').2.1 := by
      rintro m m' log log' ⟨h, rfl⟩ rfl
      rw [loggedStep_withInput (Machine.command?_ne_of_not_mem h)]
      rfl
    rw [followFrom, followFrom]
    refine Option.Rel.imp (follow_rel (S := Eq) (Machine.lockstep_withInput _) ?_ hlog
      ⟨hprogram _, rfl⟩ rfl fuel) ?_
    · rintro m m' ⟨-, rfl⟩
      exact (hinterrupted m _).symm
    · rintro y y' ⟨hstop, hlogs, -, hmachine⟩
      exact ⟨hstop, hlogs, _, hmachine⟩

/-- A session that attaches the input although the program never reads says so before the run, and
that is all that is different about it. -/
theorem session_connected (l : Launch) {interrupted : Machine ω ι → Bool}
    (hinterrupted : ∀ (m : Machine ω ι) (x : Option ι), interrupted (m.withInput x) = interrupted m)
    (output : ω) (input : ι) (ready : Option Bool) (fuel : Nat) :
    Option.Rel (fun o o' ↦ o.exit.code = o'.exit.code ∧
        (∃ text, o.exit.stderr = l.preface l.reads ready ++ text ∧
          o'.exit.stderr = l.preface l.settings.input ready ++ text) ∧
        ∃ (m : Machine ω ι) (x : Option ι), o.machine = some m ∧ o'.machine = some (m.withInput x))
      (l.run output (.ok input) ready interrupted fuel)
      (l.session l.settings.input output (.ok input) ready interrupted fuel) := by
  have hrel := l.followFrom_connected hinterrupted output input fuel ""
  rw [run, session_ok, session_ok, followFrom, followFrom, follow_eq_map,
    follow_eq_map fuel (l.preface l.settings.input ready), Option.map_map, Option.map_map]
  refine hrel.map ?_
  rintro ⟨stop, log, m⟩ ⟨stop', log', m'⟩ ⟨hstop, hlog, x, hm⟩
  obtain rfl : stop = stop' := hstop
  obtain rfl : log = log' := hlog
  obtain rfl : m' = m.withInput x := hm
  have htext : (l.conclude (stop, log, m.withInput x)).exit.stderr =
      (l.conclude (stop, log, m)).exit.stderr := by rw [conclude_withInput]
  refine ⟨conclude_code rfl, ⟨_, l.stderr_conclude_append stop _ log m, ?_⟩,
    m, x, l.machine_conclude _, l.machine_conclude _⟩
  rw [← htext]
  exact l.stderr_conclude_append stop _ log (m.withInput x)

end Launch

end CommandLine

/-! ## Causality -/

open Machine CommandLine

/-- **Input is causal.** Take two machines that differ in their input devices only, and let the
devices agree up to `k` polls. As long as the first machine has executed no more than `k` times a
`,`, the two agree in everything but their devices, and all their steps have had the same results;
and each device has been polled as often as a `,` was executed. In particular the input device of a
program without a `,` is never polled, and any other device, or none, would do as well. So it makes
no difference to a session that it connects the input only if the program has a command that reads.
A run that goes on from the same log stops in the same way, at the same point and with the same log.
The whole session ends with the same exit code and, behind what is logged before the run, the same
error output; there a session that attaches its input always has more to say. If the program has no
command that reads, it does not matter either that the input cannot be opened. -/
theorem input_is_causal {ω ι ι' : Type} [OutputDevice ω] [InputDevice ι] [InputDevice ι']
    (m : Machine ω ι) (x : Option ι') :
    (∀ k n, AgreeUpTo k m.state.input x → countSteps readsNext n m ≤ k →
        stepAll n (m.withInput x) =
          ((stepAll n m).1,
            (stepAll n m).2.withInput (x.map fun d ↦ (polls (countSteps readsNext n m) d).2))) ∧
      (∀ n, (stepAll n m).2.state.input =
        m.state.input.map fun d ↦ (polls (countSteps readsNext n m) d).2) ∧
      (Command.input.toChar ∉ m.program.toList →
        (∀ n, countSteps readsNext n m = 0 ∧ (stepAll n m).2.state.input = m.state.input ∧
          stepAll n (m.withInput x) = ((stepAll n m).1, (stepAll n m).2.withInput x)) ∧
        ∀ fuel, Machine.run fuel (m.withInput x) =
          (Machine.run fuel m).map fun y ↦ (y.1, y.2.withInput x)) ∧
      ∀ (l : Launch) (interrupted : Machine ω ι → Bool),
        (∀ (m : Machine ω ι) (y : Option ι), interrupted (m.withInput y) = interrupted m) →
        ∀ output input ready fuel,
          (∀ log, Option.Rel
              (fun y y' ↦ y.1 = y'.1 ∧ y.2.1 = y'.2.1 ∧
                ∃ z : Option ι, y'.2.2 = y.2.2.withInput z)
              (l.followFrom interrupted fuel log
                (l.machine output (if l.reads then some input else none)))
              (l.followFrom interrupted fuel log (l.connected output input))) ∧
            Option.Rel
              (fun o o' ↦ o.exit.code = o'.exit.code ∧
                (∃ text, o.exit.stderr = l.preface l.reads ready ++ text ∧
                  o'.exit.stderr = l.preface l.settings.input ready ++ text) ∧
                ∃ (m : Machine ω ι) (z : Option ι),
                  o.machine = some m ∧ o'.machine = some (m.withInput z))
              (l.run output (.ok input) ready interrupted fuel)
              (l.session l.settings.input output (.ok input) ready interrupted fuel) ∧
            (l.reads = false → ∀ f, l.run output (.error f) ready interrupted fuel =
              l.run output (.ok input) ready interrupted fuel) := by
  refine ⟨fun k n ↦ stepAll_withInput, fun n ↦ stepAll_input n m,
    fun h ↦ ⟨fun n ↦ ?_, fun fuel ↦ ?_⟩,
    fun l interrupted hinterrupted output input ready fuel ↦
      ⟨l.followFrom_connected hinterrupted output input fuel,
        l.session_connected hinterrupted output input ready fuel, fun hreads f ↦ ?_⟩⟩
  · have hcount := countSteps_readsNext_eq_zero h n
    have hinput := stepAll_input n m
    have hsteps := stepAll_withInput (agreeUpTo_zero m.state.input x) (Nat.le_of_eq hcount)
    rw [hcount] at hinput hsteps
    simp only [polls_zero, Option.map_id'] at hinput hsteps
    exact ⟨hcount, hinput, hsteps⟩
  · have hrel := (lockstep_withInput x).run ⟨h, rfl⟩ fuel
    have hmap : (Machine.run fuel m).map (fun y ↦ (y.1, y.2.withInput x)) =
        (Machine.run fuel (m.withInput x)).map id :=
      hrel.map_eq fun y y' hy ↦ Prod.ext hy.1 hy.2.2.symm
    rw [hmap, Option.map_id]
    rfl
  · rw [Launch.run, Launch.run, hreads]
    rfl

/-- On `,.,.` a device that fails at its second poll and a queue agree up to one poll. A machine
cannot tell them apart before the second `,`, and then it can. On `+.` a machine never finds out
whether there is a device, and a session that has one does not connect it, nor does it have to be
possible to open it. -/
theorem input_is_causal_second_poll :
    let input : ScriptedInput := ⟨[.ok (some 65), .error FaultKind.brokenPipe.fault]⟩
    let queue : Queue := ⟨[65, 66]⟩
    let m : Machine Collector ScriptedInput :=
      { program := Program.ofString ",.,.", state := { output := some {}, input := some input } }
    let silent : Machine Collector ScriptedInput :=
      { program := Program.ofString "+.", state := { output := some {}, input := some input } }
    let l : Launch := { name := "bfvm", code := "+.", settings := {}, filter := fun _ ↦ true }
    (AgreeUpTo 1 m.state.input (some queue) ∧ countSteps readsNext 2 m ≤ 1 ∧
        stepAll 2 (m.withInput (some queue)) =
          ((stepAll 2 m).1, (stepAll 2 m).2.withInput (some ⟨[66]⟩)) ∧
        (stepAll 3 m).2.state.failures = 1 ∧
        (stepAll 3 (m.withInput (some queue))).2.state.failures = 0) ∧
      (Command.input.toChar ∉ silent.program.toList ∧
        Machine.run 2 (silent.withInput (none : Option Queue)) =
          (Machine.run 2 silent).map fun y ↦ (y.1, y.2.withInput none)) ∧
      l.reads = false ∧ l.settings.input = true ∧
        Option.Rel
          (fun o o' ↦ o.exit.code = o'.exit.code ∧
            (∃ text, o.exit.stderr = l.preface false (some true) ++ text ∧
              o'.exit.stderr = l.preface true (some true) ++ text) ∧
            ∃ (m : Machine Collector ScriptedInput) (z : Option ScriptedInput),
              o.machine = some m ∧ o'.machine = some (m.withInput z))
          (l.run {} (.ok input) (some true) (fun _ ↦ false) 2)
          (l.session true {} (.ok input) (some true) (fun _ ↦ false) 2) ∧
        l.run ({} : Collector) (.error FaultKind.other.fault) (some true) (fun _ ↦ false) 2 =
          l.run ({} : Collector) (.ok input) (some true) (fun _ ↦ false) 2 := by
  intro input queue m silent l
  have hagree : AgreeUpTo 1 m.state.input (some queue) := rfl
  have hcount : countSteps readsNext 2 m ≤ 1 := by decide
  have hsilent : Command.input.toChar ∉ silent.program.toList := by decide
  have hreads : l.reads = false := by decide
  obtain ⟨hcausal, -, -, hsession⟩ := input_is_causal m (some queue)
  obtain ⟨-, -, hnever, -⟩ := input_is_causal silent (none : Option Queue)
  obtain ⟨-, hattached, hopened⟩ :=
    hsession l (fun _ ↦ false) (fun _ _ ↦ rfl) {} input (some true) 2
  rw [hreads] at hattached
  exact ⟨⟨hagree, hcount, hcausal 1 2 hagree hcount, rfl, rfl⟩, ⟨hsilent, (hnever hsilent).2 2⟩,
    hreads, rfl, hattached, hopened hreads _⟩

end Brainfuck
