import Brainfuck.CommandLine.Session
import Brainfuck.Proofs.CommandLine.Session
import Brainfuck.Proofs.Machine.Policies
import Brainfuck.Proofs.Machine.Safety
import Brainfuck.Proofs.Machine.Stuck
import Brainfuck.Proofs.Noninterference.Input

/-!
# The outcome of a session

A session runs a machine that anybody could build who has the text of the program, the settings and
two devices. What can be seen of the session from outside is what can be seen of a plain run of that
machine: the bytes that its output has accepted, whether it ended well, how many failures were
reported, and the error it stopped with. Nothing else of what a session is asked for shows in them,
be it where the text came from, the pause between steps, what is logged, or whether an input that
the program never reads is connected.

## The error output

All of the error output but the log comes after the run. So the error output is a log, then the line
that counts the failures, then the block that shows the error, and either of the last two may be
missing. What is in the log is left open here, but for the fact that it is made up of events.
-/

namespace Brainfuck

/-! ## Why a run fails -/

namespace Machine

variable {ω ι : Type} [OutputDevice ω] [InputDevice ι] {m m' : Machine ω ι} {n fuel : Nat}
  {r : Except RuntimeError Unit}

/-- Under the policy to halt steps that succeed count no failure. -/
theorem failures_of_stepMany_ok (hpolicy : m.state.policy = .halt)
    (h : stepMany n m = (.ok (), m')) : m'.state.failures = m.state.failures := by
  obtain ⟨rs, m₁, hhalt, -, hfailures⟩ := exists_stepAll_under n m
  have hself : m.under .halt m.state.reports = m := by rw [← hpolicy]; rfl
  have hall := hhalt m.state.reports
  rw [hself] at hall
  have hrs : rs = List.replicate n (.ok ()) := by
    rw [← stepAll_fst_of_stepMany_ok h, hall]
  have hm' : m' = m₁.under .halt m.state.reports := by
    rw [← stepAll_of_stepMany_ok h, hall]
  rw [hm']
  refine hfailures.trans ?_
  rw [hrs, List.filterMap_replicate_of_none rfl]
  rfl

/-- A run fails exactly if its steps lead to a bracket at which the machine is stuck or, under the
policy to halt, to a device that fails. -/
theorem run_ne_ok_iff (hip : m.ip ≤ m.program.size) (hrun : run fuel m = some (r, m')) :
    r ≠ .ok () ↔ ∃ n m₀, stepMany n m = (.ok (), m₀) ∧
      ((∃ side, m₀.IsStuck side) ∨
        m.state.policy = .halt ∧ ∃ op f, m₀.command? = some op ∧ m₀.state.DeviceFails f op) := by
  have hpolicy : ∀ {n m₀}, stepMany n m = (.ok (), m₀) → m₀.state.policy = m.state.policy :=
    stepMany_keeps (I := fun m₀ ↦ m₀.state.policy = m.state.policy)
      (fun m₀ h ↦ (step_policy m₀).trans h) rfl
  constructor
  · intro hr
    obtain ⟨n, m₀, hsteps, ⟨-, hok, -⟩ | ⟨hgoing, e, -, hstep⟩⟩ := exists_stepMany_of_run hrun
    · exact absurd hok hr
    · refine ⟨n, m₀, hsteps, ?_⟩
      by_contra hnone
      rw [not_or, not_exists, ← hpolicy hsteps] at hnone
      have hsize := stepMany_le_size hip hsteps
      have hok := (step_fst_eq_ok_iff hsize).2 ⟨of_decide_eq_false hgoing, hnone⟩
      rw [hstep] at hok
      cases hok
  · rintro ⟨n, m₀, hsteps, hfails⟩ rfl
    have herror : ∃ e m₁, m₀.step = (.error e, m₁) ∧ ∀ ip, e ≠ .terminated ip := by
      rcases hfails with ⟨side, hstuck⟩ | ⟨hhalt, op, f, hop, hdevice⟩
      · exact ⟨_, _, hstuck.step_eq, by simp⟩
      · exact ⟨_, _, step_of_deviceFails ((hpolicy hsteps).trans hhalt) hop hdevice, by simp⟩
    obtain ⟨e, m₁, hstep, he⟩ := herror
    have hlast : stepMany (n + 1) m = (.error e, m₁) := by
      rw [stepMany_add_of_ok hsteps, stepMany_succ_of_error hstep]
    have hrun' := run_unique hrun (run_of_stepMany_error hlast he)
    cases (Prod.mk.inj hrun').1

end Machine

namespace CommandLine

/-! ## Logs -/

/-- The text is made up of the lines of events. -/
def IsLog (text : String) : Prop :=
  ∃ events : List Event, text = String.join (events.map Event.line)

theorem isLog_empty : IsLog "" := ⟨[], rfl⟩

theorem IsLog.append {log log' : String} (h : IsLog log) (h' : IsLog log') :
    IsLog (log ++ log') := by
  obtain ⟨events, rfl⟩ := h
  obtain ⟨events', rfl⟩ := h'
  exact ⟨events ++ events', by rw [List.map_append, String.join_append]⟩

theorem isLog_log (f : Filter) (e : Event) : IsLog (f.log e) := by
  rw [Filter.log]
  split
  · exact ⟨[e], by rw [List.map_singleton, String.join_cons, String.join_nil, String.append_empty]⟩
  · exact isLog_empty

theorem Launch.isLog_preface (l : Launch) (attached : Bool) (ready : Option Bool) :
    IsLog (l.preface attached ready) := by
  rw [preface]
  refine (IsLog.append (isLog_log _ _) ?_).append (isLog_log _ _)
  match attached, ready with
  | false, _ => exact isLog_empty
  | true, none => exact isLog_empty
  | true, some _ => exact isLog_log _ _

variable {ω ι : Type} {f : Filter} {jumps paced : Bool} {log : String}

theorem IsLog.logReports (h : IsLog log) (f : Filter) (reported : Nat) (m : Machine ω ι) :
    IsLog (logReports f reported log m) := by
  rw [CommandLine.logReports, ← Array.foldl_toList]
  induction (m.state.reports.extract reported).toList generalizing log with
  | nil => exact h
  | cons e rest ih => exact ih (h.append (isLog_log f _))

/-! ## What is seen from outside -/

variable [OutputDevice ω]

/-- The line that counts the failures that were reported, if there were any. -/
def failureLine (name : String) (policy : FailurePolicy) (failures : Nat) : String :=
  if policy = .report ∧ 0 < failures then
    name ++ ": " ++ failures.repr ++ " I/O failure(s) during run\n"
  else ""

/-- The block that shows the error that a run stopped with, if it was an error. -/
def errorBlock (name code : String) : Except RuntimeError Unit → String
  | .ok () => ""
  | .error e => e.render (some name) code.toList

/-- The outcome of a session shows what has become of a run, and nothing else but a log. -/
structure Outcome.Shows (name code : String) (policy : FailurePolicy) (o : Outcome ω ι)
    (x : Except RuntimeError Unit × Machine ω ι) : Prop where
  /-- The exit code says whether the run ended well. -/
  code_eq : o.exit.code = if x.1.isOk then 0 else 1
  /-- The bytes that were written are those that the device of the run accepted. -/
  stdout_eq : o.stdout = written x.2
  /-- The failures are counted and the error is shown, behind the log. -/
  stderr_eq : ∃ log, IsLog log ∧
    o.exit.stderr = log ++ failureLine name policy x.2.state.failures ++ errorBlock name code x.1

/-- The machine that runs a text under the given settings: each device is there if the settings ask
for it. -/
def machineFor (s : Settings) (code : String) (output : ω) (input : ι) : Machine ω ι where
  program := .ofString code
  state :=
    { output := if s.output then some output else none
      input := if s.input then some input else none
      policy := s.policy }

namespace Outcome.Shows

variable {name code : String} {policy : FailurePolicy} {o : Outcome ω ι}
  {x : Except RuntimeError Unit × Machine ω ι}

theorem code_eq_zero_iff (h : o.Shows name code policy x) : o.exit.code = 0 ↔ x.1 = .ok () := by
  rw [h.code_eq]
  rcases x.1 with e | _
  · simp [Except.isOk, Except.toBool]
  · simp [Except.isOk, Except.toBool]

theorem code_eq_one_iff (h : o.Shows name code policy x) : o.exit.code = 1 ↔ x.1 ≠ .ok () := by
  rw [ne_eq, ← h.code_eq_zero_iff, h.code_eq]
  split
  · simp
  · simp

end Outcome.Shows

namespace Launch

/-- What a session concludes from a run shows the run, whatever is left of the input. -/
theorem shows_conclude (l : Launch) (r : Except RuntimeError Unit) (h : IsLog log)
    (m : Machine ω ι) (z : Option ι) :
    (l.conclude (.finished r, log, m)).Shows l.name l.code l.settings.policy
      (r, m.withInput z) := by
  have hfailures : (if m.state.failures > 0 ∧ l.settings.policy = .report then
      l.name ++ ": " ++ m.state.failures.repr ++ " I/O failure(s) during run\n" else "") =
        failureLine l.name l.settings.policy m.state.failures :=
    if_congr and_comm rfl rfl
  rcases r with e | _
  · refine ⟨rfl, rfl, log, h, ?_⟩
    rw [conclude, epilogue, hfailures, String.append_assoc]
    rfl
  · refine ⟨rfl, rfl, _, h.append (isLog_log l.filter (.ended m.steps)), ?_⟩
    rw [conclude, epilogue, hfailures, errorBlock, String.append_empty, String.append_assoc]
    rfl

end Launch

variable [InputDevice ι]

/-! ## Following a run -/

/-- A step adds nothing but events to the log. -/
theorem IsLog.loggedStep (h : IsLog log) (f : Filter) (jumps : Bool) (reported : Nat)
    (m : Machine ω ι) : IsLog (loggedStep f jumps reported log m).2.1 := by
  rw [CommandLine.loggedStep]
  split
  · exact h.logReports f reported _
  · exact h.append (isLog_log f _)

/-- Nobody interrupts a run. -/
def neverInterrupted (_ : Machine ω ι) : Bool := false

/-- A session that nobody interrupts stops where the run stops, with the same result and at the same
machine. -/
theorem follow_run (h : IsLog log) (fuel : Nat) (m : Machine ω ι) :
    Option.Rel (fun x y ↦ x.1 = .finished y.1 ∧ IsLog x.2.1 ∧ x.2.2 = y.2)
      (follow f jumps paced neverInterrupted fuel log m) (Machine.run fuel m) := by
  induction fuel, m using Machine.run.induct generalizing log with
  | case1 fuel m hm =>
    rw [follow_of_terminated hm, Machine.run_of_terminated hm]
    exact .some ⟨rfl, h, rfl⟩
  | case2 m hm =>
    have hm := Bool.of_not_eq_true hm
    rw [follow_zero hm, Machine.run_zero hm]
    exact .none
  | case3 m _ fuel m₁ hstep ih =>
    rw [follow_succ_of_ok hstep, neverInterrupted, Bool.and_false, if_neg Bool.false_ne_true,
      Machine.run_succ_of_ok hstep]
    exact ih (h.loggedStep f jumps _ m)
  | case4 m hm fuel e m₁ hstep =>
    have hm := Bool.of_not_eq_true hm
    rw [follow_succ_of_error hm hstep, Machine.run_succ_of_error hm hstep]
    exact .some ⟨rfl, h.loggedStep f jumps _ m, rfl⟩

/-- A session that could be interrupted either is, or ends as if it could not. -/
theorem follow_interrupted_or (interrupted : Machine ω ι → Bool) (fuel : Nat) (log : String)
    (m : Machine ω ι) :
    (∃ log' m', follow f jumps paced interrupted fuel log m = some (.interrupted, log', m')) ∨
      follow f jumps paced interrupted fuel log m =
        follow f jumps paced neverInterrupted fuel log m := by
  induction fuel, m using Machine.run.induct generalizing log with
  | case1 fuel m hm =>
    rw [follow_of_terminated hm, follow_of_terminated hm]
    exact Or.inr rfl
  | case2 m hm =>
    have hm := Bool.of_not_eq_true hm
    rw [follow_zero hm, follow_zero hm]
    exact Or.inr rfl
  | case3 m _ fuel m₁ hstep ih =>
    rw [follow_succ_of_ok hstep, follow_succ_of_ok hstep, neverInterrupted, Bool.and_false,
      if_neg Bool.false_ne_true]
    split
    · exact Or.inl ⟨_, _, rfl⟩
    · exact ih _
  | case4 m hm fuel e m₁ hstep =>
    have hm := Bool.of_not_eq_true hm
    rw [follow_succ_of_error hm hstep, follow_succ_of_error hm hstep]
    exact Or.inr rfl

namespace Launch

theorem followFrom_run (l : Launch) (h : IsLog log) (fuel : Nat) (m : Machine ω ι) :
    Option.Rel (fun x y ↦ x.1 = .finished y.1 ∧ IsLog x.2.1 ∧ x.2.2 = y.2)
      (l.followFrom neverInterrupted fuel log m) (m.run fuel) :=
  follow_run h fuel m

/-- A session that always attaches its input shows the run of the machine that the settings ask
for. -/
theorem shows_session (l : Launch) (output : ω) (input : ι) (ready : Option Bool) (fuel : Nat) :
    Option.Rel (Outcome.Shows l.name l.code l.settings.policy)
      (l.session l.settings.input output (.ok input) ready neverInterrupted fuel)
      ((machineFor l.settings l.code output input).run fuel) := by
  have hfollow := l.followFrom_run (l.isLog_preface l.settings.input ready) fuel
    (machineFor l.settings l.code output input)
  rw [session_ok]
  refine hfollow.map_left ?_
  rintro ⟨stop, log, m⟩ ⟨r, m'⟩ ⟨hstop, hlog, hm⟩
  obtain rfl : stop = .finished r := hstop
  obtain rfl : m = m' := hm
  exact l.shows_conclude r hlog m m.state.input

/-- A session shows the run of the machine that the settings ask for, although it connects the input
only if the program has a command that reads. -/
theorem shows_run (l : Launch) (output : ω) (input : ι) (ready : Option Bool) (fuel : Nat) :
    Option.Rel (Outcome.Shows l.name l.code l.settings.policy)
      (l.run output (.ok input) ready neverInterrupted fuel)
      ((machineFor l.settings l.code output input).run fuel) := by
  have hnever : ∀ (m : Machine ω ι) (z : Option ι),
      neverInterrupted (m.withInput z) = neverInterrupted m := fun _ _ ↦ rfl
  have hconnected := l.followFrom_connected hnever output input fuel (l.preface l.reads ready)
  have hfollow := l.followFrom_run (l.isLog_preface l.reads ready) fuel
    (machineFor l.settings l.code output input)
  rw [run, session_ok]
  refine (hconnected.comp (t := fun y x ↦ y.1 = .finished x.1 ∧ IsLog y.2.1 ∧
    ∃ z, x.2 = y.2.2.withInput z) hfollow ?_).map_left ?_
  · rintro y y' x ⟨hstop, hlogs, z, hm⟩ ⟨hstop', hlog, hm'⟩
    exact ⟨hstop.trans hstop', hlogs ▸ hlog, z, hm'.symm.trans hm⟩
  · rintro ⟨stop, log, m⟩ ⟨r, m'⟩ ⟨hstop, hlog, z, hm⟩
    obtain rfl : stop = .finished r := hstop
    obtain rfl : m' = m.withInput z := hm
    exact l.shows_conclude r hlog m z

/-- A session that could be interrupted exits with a code of its own, or as if it could not. -/
theorem run_interrupted_or {l : Launch} {output : ω} {input : ι} {ready : Option Bool}
    {interrupted : Machine ω ι → Bool} {fuel : Nat} {o : Outcome ω ι}
    (h : l.run output (.ok input) ready interrupted fuel = some o) :
    o.exit.code = 130 ∨ l.run output (.ok input) ready neverInterrupted fuel = some o := by
  rw [run, session_ok, followFrom] at h
  rw [run, session_ok, followFrom]
  rcases follow_interrupted_or interrupted fuel (l.preface l.reads ready)
    (l.machine output (if l.reads then some input else none)) with ⟨log, m, hinterrupted⟩ | hsame
  · rw [hinterrupted, Option.map_some] at h
    exact Or.inl (congrArg (·.exit.code) (Option.some.inj h).symm)
  · rw [hsame] at h
    exact Or.inr h

end Launch

/-! ## Where the text comes from -/

namespace RunArguments

/-- The arguments give the text of the program: by its parts, or by the name of a file. -/
def Gives (read : String → Except FileError String) (text : String) (a : RunArguments) : Prop :=
  (a.file = none ∧ a.code ≠ [] ∧ String.join a.code = text) ∨
    ∃ path, a.file = some path ∧ a.code = [] ∧ read path = .ok text

/-- What is launched does not depend on the way in which the text is given. -/
theorem launch_of_gives {a : RunArguments} {name text : String} {filter : Bool → Filter}
    {var : String → Option String} {read : String → Except FileError String}
    (hhelp : a.help = false) (h : a.Gives read text) :
    a.launch name filter var read =
      .ok ⟨name, text, settingsFor var read a.flags, filter a.verbose⟩ := by
  have hrequest : ∃ source : CodeSource, source.load read = .ok text ∧
      Request.ofRunArguments name a = .ok ⟨source, a.flags, a.verbose⟩ := by
    rw [Request.ofRunArguments, if_neg (by rw [hhelp]; exact Bool.false_ne_true)]
    rcases h with ⟨hfile, hcode, rfl⟩ | ⟨path, hfile, hcode, hread⟩
    · obtain ⟨part, rest, hparts⟩ := List.exists_cons_of_ne_nil hcode
      exact ⟨.inline (String.join a.code), rfl, by rw [hfile, hparts]⟩
    · exact ⟨.file path, hread, by rw [hfile, hcode]⟩
  obtain ⟨source, hload, hrequest⟩ := hrequest
  rw [launch, hrequest]
  simp only [Launch.ofRequest, hload]

/-- To carry out `run` for a text is to run the launch of the text. -/
theorem shows_carryOut {a : RunArguments} {name text : String} {var : String → Option String}
    {read : String → Except FileError String} {s : Settings} {delay : Option UInt64}
    (hhelp : a.help = false) (h : a.Gives read text)
    (hsettings : settingsFor var read a.flags = { s with delay }) (filter : Bool → Filter)
    (output : ω) (input : ι) (ready : Option Bool) (fuel : Nat) :
    Option.Rel (Outcome.Shows name text s.policy)
      (a.carryOut name filter var read output (.ok input) ready neverInterrupted fuel)
      ((machineFor s text output input).run fuel) := by
  rw [carryOut, launch_of_gives hhelp h, hsettings]
  exact Launch.shows_run ⟨name, text, { s with delay }, filter a.verbose⟩ output input ready fuel

end RunArguments

/-- However the arguments of the command are written, a whole session shows the run of the text that
they give, on the feed that it finds, if the standard input can be opened. -/
theorem Invocation.shows_run {i : Invocation} {a : RunArguments} {text : String} {s : Settings}
    {delay : Option UInt64} (hparse : Arguments.parse i.args = .ok ⟨false, some a⟩)
    (hhelp : a.help = false) (h : a.Gives i.read text)
    (hsettings : settingsFor i.var i.read a.flags = { s with delay }) (hopened : i.opened = .ok ())
    (output : ω) (arrivals : List ReadResult) (fuel : Nat) :
    Option.Rel (Outcome.Shows i.name text s.policy)
      (i.run output arrivals neverInterrupted fuel)
      ((machineFor s text output (i.feed arrivals)).run fuel) := by
  have harguments : RunArguments.ofArguments i.name i.args = .ok a := by
    rw [RunArguments.ofArguments, hparse]
  rw [run, harguments, hopened]
  exact RunArguments.shows_carryOut hhelp h hsettings _ output _ _ fuel

/-! ## Sessions and runs -/

open Machine

/-- **The outcome of a session is that of a run.** Take the machine that runs a text under some
settings, on any two devices. A session with this text and these settings ends exactly if the run
does, and shows the run: it has written what the output of the machine has accepted, and behind its
log there are the count of the failures, if the policy is to report and there were any, and the
error, if there was one. The pause between steps makes no difference, nor what is logged, nor
whether an input that is asked for is attached always or only to a program that reads. A session
that could be interrupted exits with a code of its own or ends as one that could not.

The exit code is `0` if the run ends well. It is `1` if the steps of the run lead to a bracket that
has no partner although it has to jump, or, under the policy to halt, to the first device that
fails; under the policy to report there is no other reason. The same holds where `run` is carried
out for arguments that give the text, by its parts or by the name of a file, if the settings that
these lead to differ in the pause at most. -/
theorem session_shows_run (name code : String) (s : Settings) (fuel : Nat) :
    (∀ (output : ω) (input : ι) delay filter ready,
      let m := machineFor s code output input
      let l : Launch := ⟨name, code, { s with delay }, filter⟩
      Option.Rel (Outcome.Shows name code s.policy)
          (l.run output (.ok input) ready neverInterrupted fuel) (run fuel m) ∧
        Option.Rel (Outcome.Shows name code s.policy)
          (l.session s.input output (.ok input) ready neverInterrupted fuel) (run fuel m) ∧
        (∀ interrupted o, l.run output (.ok input) ready interrupted fuel = some o →
          o.exit.code = 130 ∨ l.run output (.ok input) ready neverInterrupted fuel = some o) ∧
        ∀ o, l.run output (.ok input) ready neverInterrupted fuel = some o →
          (o.exit.code = 0 ↔ ∃ m', run fuel m = some (.ok (), m')) ∧
          (s.policy = .report →
            (o.exit.code = 1 ↔ ∃ n m₀, stepMany n m = (.ok (), m₀) ∧ ∃ side, m₀.IsStuck side)) ∧
          (s.policy = .halt →
            (o.exit.code = 1 ↔ ∃ n m₀, stepMany n m = (.ok (), m₀) ∧
              ((∃ side, m₀.IsStuck side) ∨ m₀.state.failures = 0 ∧
                ∃ op f, m₀.command? = some op ∧ m₀.state.DeviceFails f op)))) ∧
    ∀ (a : RunArguments) filter var read delay, a.help = false → a.Gives read code →
      settingsFor var read a.flags = { s with delay } → ∀ (output : ω) (input : ι) ready,
        Option.Rel (Outcome.Shows name code s.policy)
          (a.carryOut name filter var read output (.ok input) ready neverInterrupted fuel)
          (run fuel (machineFor s code output input)) := by
  refine ⟨fun output input delay filter ready ↦ ?_,
    fun a filter var read delay hhelp hgives hsettings output input ready ↦
      RunArguments.shows_carryOut hhelp hgives hsettings filter output input ready fuel⟩
  intro m l
  have hshows : Option.Rel (Outcome.Shows name code s.policy)
      (l.run output (.ok input) ready neverInterrupted fuel) (run fuel m) :=
    l.shows_run output input ready fuel
  refine ⟨hshows, l.shows_session output input ready fuel,
    fun interrupted o ↦ l.run_interrupted_or, fun o ho ↦ ?_⟩
  rw [ho] at hshows
  rcases hrun : run fuel m with _ | ⟨r, m'⟩
  · rw [hrun] at hshows
    cases hshows
  · rw [hrun, Option.rel_some_some] at hshows
    have hfails := run_ne_ok_iff (Nat.zero_le _ : m.ip ≤ m.program.size) hrun
    rw [hshows.code_eq_zero_iff, hshows.code_eq_one_iff, hfails]
    refine ⟨?_, fun hreport ↦ ?_, fun hhalt ↦ ?_⟩
    · simp
    · have hpolicy : m.state.policy ≠ .halt := by
        rw [show m.state.policy = .report from hreport]
        decide
      simp only [hpolicy, false_and, or_false]
    · have hpolicy : m.state.policy = .halt := hhalt
      have hfirst : ∀ {n m₀}, stepMany n m = (.ok (), m₀) → m₀.state.failures = 0 :=
        fun hsteps ↦ failures_of_stepMany_ok hpolicy hsteps
      refine exists_congr fun n ↦ exists_congr fun m₀ ↦ and_congr_right fun hsteps ↦ ?_
      simp only [hpolicy, hfirst hsteps, true_and]

/-- The text `+.]` writes to an output that refuses its byte, and then comes to a `]` without a
partner. If the failure is reported, the `]` ends the run with the error; under the policy to halt
the failure does. With a pause the session can be interrupted. The text can be read from a file. -/
theorem session_shows_run_refused :
    let refused : Refusal := ⟨FaultKind.brokenPipe.fault⟩
    let queue : Queue := {}
    let filter : Filter := fun _ ↦ true
    let l : Launch := ⟨"bfvm", "+.]", { delay := some 5, policy := .report }, filter⟩
    let m := machineFor l.settings "+.]" refused queue
    let halting : Launch := ⟨"bfvm", "+.]", { policy := .halt }, filter⟩
    let m' := machineFor halting.settings "+.]" refused queue
    let a : RunArguments := { file := some "p.bf" }
    let var : String → Option String := fun _ ↦ none
    let read : String → Except FileError String := fun _ ↦ .ok "+.]"
    (∃ o, l.run refused (.ok queue) none neverInterrupted 3 = some o ∧ o.exit.code = 1 ∧
        ∃ n m₀, stepMany n m = (.ok (), m₀) ∧ ∃ side, m₀.IsStuck side) ∧
      (∃ o, halting.run refused (.ok queue) none neverInterrupted 3 = some o ∧ o.exit.code = 1 ∧
        ∃ n m₀, stepMany n m' = (.ok (), m₀) ∧
          ((∃ side, m₀.IsStuck side) ∨ m₀.state.failures = 0 ∧
            ∃ op f, m₀.command? = some op ∧ m₀.state.DeviceFails f op)) ∧
      (∃ o, l.run refused (.ok queue) none (fun _ ↦ true) 3 = some o ∧
        (o.exit.code = 130 ∨ l.run refused (.ok queue) none neverInterrupted 3 = some o)) ∧
      (a.help = false ∧ a.Gives read "+.]" ∧
        settingsFor var read a.flags = { policy := .report } ∧
        Option.Rel (Outcome.Shows "bfvm" "+.]" .report)
          (a.carryOut "bfvm" (fun _ ↦ filter) var read refused (.ok queue) none neverInterrupted 3)
          (run 3 (machineFor { policy := .report } "+.]" refused queue))) := by
  intro refused queue filter l m halting m' a var read
  obtain ⟨hreport, harguments⟩ :=
    session_shows_run (ω := Refusal) (ι := Queue) "bfvm" "+.]" { policy := .report } 3
  obtain ⟨hhalt, -⟩ :=
    session_shows_run (ω := Refusal) (ι := Queue) "bfvm" "+.]" { policy := .halt } 3
  obtain ⟨-, -, hinterrupted, hcodes⟩ := hreport refused queue (some 5) filter none
  obtain ⟨-, -, -, hcodes'⟩ := hhalt refused queue none filter none
  have hcode : (l.run refused (.ok queue) none neverInterrupted 3).map (·.exit.code) = some 1 := by
    decide +kernel
  obtain ⟨o, ho, hcode⟩ := Option.map_eq_some_iff.1 hcode
  have hcode' : (halting.run refused (.ok queue) none neverInterrupted 3).map (·.exit.code) =
      some 1 := by
    decide +kernel
  obtain ⟨o', ho', hcode'⟩ := Option.map_eq_some_iff.1 hcode'
  have hstopped : (l.run refused (.ok queue) none (fun _ ↦ true) 3).isSome = true := by
    decide +kernel
  obtain ⟨o₁, ho₁⟩ := Option.isSome_iff_exists.1 hstopped
  have hsettings : settingsFor var read a.flags = { policy := .report } := by decide +kernel
  have hgives : a.Gives read "+.]" := Or.inr ⟨"p.bf", rfl, rfl, rfl⟩
  exact ⟨⟨o, ho, hcode, ((hcodes o ho).2.1 rfl).1 hcode⟩,
    ⟨o', ho', hcode', ((hcodes' o' ho').2.2 rfl).1 hcode'⟩,
    ⟨o₁, ho₁, hinterrupted _ o₁ ho₁⟩,
    rfl, hgives, hsettings,
    harguments a (fun _ ↦ filter) var read none rfl hgives hsettings refused queue none⟩

end CommandLine

end Brainfuck
