import Brainfuck.Proofs.Machine.Errors
import Brainfuck.Proofs.Machine.Steps
import Brainfuck.Settings.Basic

/-!
# Driving a machine

A host drives a machine by calls of three kinds: it makes one step, it runs the machine, or it runs
it with pauses. Calls can be mixed in any order, and go on after errors and at the end of the
program.

## One line of states

A step that executes no symbol leaves the machine as it was, and so does the same step made again.
So all states that a machine is ever in lie on one line, the states after no steps, after one, after
two, and so on, and the counter of steps says where on it the machine is. Every call moves the
machine along this line, and a run stops at the first point at which a host that steps by hand would
stop: at the end of the program, or behind the first step that fails.
-/

namespace Brainfuck.Machine

/-! ## Calls and answers -/

/-- A call that a host makes on a machine. Looking at the machine is no call: it changes nothing. -/
inductive Call where
  /-- Execute one symbol. -/
  | step
  /-- Run to the end of the program, or to the first error. -/
  | run
  /-- Run with a pause between one step and the next. -/
  | runPaced (delay : Duration)
deriving DecidableEq

/-- What comes of a call. -/
structure Answer where
  /-- What the call gives back. -/
  result : Except RuntimeError Unit
  /-- The pauses that were made during the call. -/
  pauses : List Duration := []

/-- What a host does: it makes a call, or it changes the input device from outside. -/
inductive Action (ι : Type) where
  /-- A call on the machine. -/
  | call (c : Call)
  /-- Something happens to the input device, such as that bytes are sent to it. -/
  | supply (change : ι → ι)

variable {ω ι : Type} {m m' : Machine ω ι} {e : RuntimeError} {r : Except RuntimeError Unit}
  {c fuel : Nat}

/-- The machine after something has happened to its input device. -/
def supply (change : ι → ι) (m : Machine ω ι) : Machine ω ι :=
  { m with state := { m.state with input := m.state.input.map change } }

variable [OutputDevice ω] [InputDevice ι]

/-- Make a call. There is no answer if it is a run for which `fuel` steps are not enough. -/
def call (fuel : Nat) (m : Machine ω ι) : Call → Option (Answer × Machine ω ι)
  | .step => some (⟨m.step.1, []⟩, m.step.2)
  | .run => (run fuel m).map fun x ↦ (⟨x.1, []⟩, x.2)
  | .runPaced delay =>
    (runPaced fuel 0 m).map fun x ↦ (⟨x.1, List.replicate x.2.2 delay⟩, x.2.1)

/-- Let a host do one thing after another: the answers to its calls, and the machine after them. -/
def serve (fuel : Nat) : List (Action ι) → Machine ω ι → Option (List Answer × Machine ω ι)
  | [], m => some ([], m)
  | .supply change :: actions, m => serve fuel actions (m.supply change)
  | .call c :: actions, m =>
    match m.call fuel c with
    | none => none
    | some (answer, m) => (serve fuel actions m).map fun x ↦ (answer :: x.1, x.2)

theorem serve_call {c : Call} {answer : Answer} (h : m.call fuel c = some (answer, m'))
    (actions : List (Action ι)) :
    serve fuel (.call c :: actions) m =
      (serve fuel actions m').map fun x ↦ (answer :: x.1, x.2) := by
  rw [serve, h]

/-- A conversation that begins with a call has its answer first. -/
theorem serve_call_eq_some {c : Call} {actions : List (Action ι)} {answers : List Answer}
    (h : serve fuel (.call c :: actions) m = some (answers, m')) :
    ∃ answer rest m₁, answers = answer :: rest ∧ m.call fuel c = some (answer, m₁) ∧
      serve fuel actions m₁ = some (rest, m') := by
  rw [serve] at h
  split at h
  · cases h
  · next answer m₁ hcall =>
    obtain ⟨⟨rest, m₂⟩, hrest, hx⟩ := Option.map_eq_some_iff.1 h
    obtain ⟨rfl, rfl⟩ := Prod.mk.inj hx
    exact ⟨answer, rest, m₁, rfl, hcall, hrest⟩

/-! ## Where a machine stops -/

/-- A host that makes steps by hand, until the program has come to its end or a step fails, makes
`c` steps, and is left with the result `r` and the machine `m'`. -/
structure Stops (m : Machine ω ι) (c : Nat) (r : Except RuntimeError Unit) (m' : Machine ω ι) :
    Prop where
  /-- Before each of the steps the program has not come to its end. -/
  going : ∀ k < c, (stepAll k m).2.terminated = false
  /-- The steps lead to `m'`. -/
  reached : (stepAll c m).2 = m'
  /-- All steps succeed and the program has come to its end, or the last step is the first that
  fails. -/
  result :
    (r = .ok () ∧ (stepAll c m).1 = List.replicate c (.ok ()) ∧ m'.terminated = true) ∨
      ∃ k e, c = k + 1 ∧ r = .error e ∧
        (stepAll c m).1 = List.replicate k (.ok ()) ++ [.error e]

theorem stops_of_terminated (h : m.terminated = true) : m.Stops 0 (.ok ()) m where
  going k hk := absurd hk (Nat.not_lt_zero k)
  reached := rfl
  result := Or.inl ⟨rfl, rfl, h⟩

theorem stops_of_error (h : m.terminated = false) (hstep : m.step = (.error e, m')) :
    m.Stops 1 (.error e) m' where
  going k hk := by
    obtain rfl := Nat.lt_one_iff.1 hk
    exact h
  reached := (congrArg Prod.snd hstep :)
  result := by
    refine Or.inr ⟨0, e, rfl, rfl, ?_⟩
    rw [stepAll_succ, hstep]
    rfl

theorem Stops.of_step {m₁ : Machine ω ι} (h : m₁.Stops c r m') (hstep : m.step = (.ok (), m₁)) :
    m.Stops (c + 1) r m' where
  going k hk := by
    cases k with
    | zero => exact terminated_eq_false_of_step hstep (by simp)
    | succ k =>
      have hgoing := h.going k (Nat.lt_of_succ_lt_succ hk)
      rw [stepAll_succ, hstep]
      exact hgoing
  reached := by
    rw [stepAll_succ, hstep]
    exact h.reached
  result := by
    rw [stepAll_succ, hstep]
    rcases h.result with ⟨hr, hall, hm'⟩ | ⟨k, e, rfl, hr, hall⟩
    · exact Or.inl ⟨hr, congrArg (Except.ok () :: ·) hall, hm'⟩
    · exact Or.inr ⟨k + 1, e, rfl, hr, congrArg (Except.ok () :: ·) hall⟩

/-- The three ways to stop are the three ways in which a run goes. -/
theorem Stops.cases (h : m.Stops c r m') :
    (c = 0 ∧ m.terminated = true ∧ r = .ok () ∧ m' = m) ∨
      (c = 1 ∧ m.terminated = false ∧ ∃ e, r = .error e ∧ m.step = (.error e, m')) ∨
      ∃ k m₁, c = k + 1 ∧ m.step = (.ok (), m₁) ∧ m₁.Stops k r m' := by
  obtain ⟨hgoing, hreached, hresult⟩ := h
  cases c with
  | zero =>
    obtain rfl := hreached
    rcases hresult with ⟨hr, -, hm'⟩ | ⟨k, e, hk, -⟩
    · exact Or.inl ⟨rfl, hm', hr, rfl⟩
    · cases hk
  | succ c =>
    have hm : m.terminated = false := hgoing 0 (Nat.succ_pos c)
    have hmore : ∀ k < c, (stepAll k m.step.2).2.terminated = false :=
      fun k hk ↦ hgoing (k + 1) (Nat.succ_lt_succ hk)
    rw [stepAll_succ] at hresult
    rcases hresult with ⟨hr, hall, hm'⟩ | ⟨k, e, hk, hr, hall⟩
    · obtain ⟨hfirst, hrest⟩ := List.cons.inj hall
      exact Or.inr (Or.inr ⟨c, m.step.2, rfl, Prod.ext hfirst rfl, hmore, hreached,
        Or.inl ⟨hr, hrest, hm'⟩⟩)
    · obtain rfl := Nat.succ.inj hk
      cases c with
      | zero =>
        have hfirst := (List.cons.inj hall).1
        exact Or.inr (Or.inl ⟨rfl, hm, e, hr, Prod.ext hfirst hreached⟩)
      | succ k =>
        obtain ⟨hfirst, hrest⟩ := List.cons.inj hall
        exact Or.inr (Or.inr ⟨k + 1, m.step.2, rfl, Prod.ext hfirst rfl, hmore, hreached,
          Or.inr ⟨k, e, rfl, hr, hrest⟩⟩)

/-- To show something of all machines that stop it is enough to show it of those at the end of their
program, of those whose next step fails, and, going back by one step, of all others. -/
theorem Stops.induct
    {motive : ∀ {m : Machine ω ι} {c r m'}, m.Stops c r m' → Prop}
    (ended : ∀ {m : Machine ω ι} (hm : m.terminated = true), motive (stops_of_terminated hm))
    (failed : ∀ {m m' : Machine ω ι} {e} (hm : m.terminated = false)
      (hstep : m.step = (.error e, m')), motive (stops_of_error hm hstep))
    (next : ∀ {m m₁ m' : Machine ω ι} {c r} (hstep : m.step = (.ok (), m₁))
      (more : m₁.Stops c r m'), motive more → motive (more.of_step hstep))
    {m : Machine ω ι} {c r m'} (h : m.Stops c r m') : motive h := by
  induction c generalizing m with
  | zero =>
    rcases h.cases with ⟨-, hm, rfl, rfl⟩ | ⟨hc, -⟩ | ⟨k, m₁, hc, -⟩
    · exact ended hm
    · cases hc
    · cases hc
  | succ c ih =>
    rcases h.cases with ⟨hc, -⟩ | ⟨hc, hm, e, rfl, hstep⟩ | ⟨k, m₁, hc, hstep, hmore⟩
    · cases hc
    · cases hc
      exact failed hm hstep
    · cases hc
      exact next hstep hmore (ih hmore)

theorem Stops.terminated_iff (h : m.Stops c r m') : m.terminated = true ↔ c = 0 := by
  rcases h.cases with ⟨rfl, hm, -⟩ | ⟨rfl, hm, -⟩ | ⟨k, m₁, rfl, hstep, -⟩
  · simp [hm]
  · simp [hm]
  · simp [terminated_eq_false_of_step hstep]

/-! ## Runs stop where steps stop -/

/-- A run that has an answer stops where steps made by hand do. -/
theorem stops_of_run (h : run fuel m = some (r, m')) : ∃ c ≤ fuel, m.Stops c r m' := by
  induction fuel using Nat.strongRecOn generalizing m with
  | ind fuel ih =>
    rcases run_cases h with
      ⟨hm, rfl, rfl⟩ | ⟨hm, k, e, rfl, rfl, hstep⟩ | ⟨k, m₁, rfl, hstep, hmore⟩
    · exact ⟨0, Nat.zero_le fuel, stops_of_terminated hm⟩
    · exact ⟨1, Nat.succ_pos k, stops_of_error hm hstep⟩
    · obtain ⟨c, hc, hstops⟩ := ih k (Nat.lt_succ_self k) hmore
      exact ⟨c + 1, Nat.succ_le_succ hc, hstops.of_step hstep⟩

/-- A machine that stops has an answer to a run with enough fuel. -/
theorem Stops.run (h : m.Stops c r m') (more : Nat) :
    Machine.run (c + more) m = some (r, m') := by
  induction h using Stops.induct with
  | ended hm => exact run_of_terminated hm _
  | failed hm hstep =>
    rw [Nat.add_comm]
    exact run_succ_of_error hm hstep more
  | next hstep _ ih =>
    rw [Nat.add_right_comm, run_succ_of_ok hstep]
    exact ih

/-! ## Pauses -/

theorem runPaced_of_terminated (h : m.terminated = true) (fuel pauses : Nat) :
    runPaced fuel pauses m = some (.ok (), m, pauses) := by
  unfold runPaced
  simp [h]

theorem runPaced_zero (h : m.terminated = false) (pauses : Nat) : runPaced 0 pauses m = none := by
  unfold runPaced
  simp [h]

theorem runPaced_succ_of_error (h : m.terminated = false) (hstep : m.step = (.error e, m'))
    (fuel pauses : Nat) : runPaced (fuel + 1) pauses m = some (.error e, m', pauses) := by
  rw [runPaced]
  simp [h, hstep]

theorem runPaced_succ_of_ok (hstep : m.step = (.ok (), m')) (fuel pauses : Nat) :
    runPaced (fuel + 1) pauses m =
      runPaced fuel (if m'.terminated then pauses else pauses + 1) m' := by
  have hm : m.terminated = false := terminated_eq_false_of_step hstep (by simp)
  rw [runPaced]
  simp [hm, hstep]

/-- Pauses change nothing about a run. -/
theorem runPaced_eq_run (fuel pauses : Nat) (m : Machine ω ι) :
    (runPaced fuel pauses m).map (fun x ↦ (x.1, x.2.1)) = run fuel m := by
  induction fuel, m using run.induct generalizing pauses with
  | case1 fuel m hm =>
    rw [runPaced_of_terminated hm, run_of_terminated hm]
    rfl
  | case2 m hm =>
    have hm := Bool.of_not_eq_true hm
    rw [runPaced_zero hm, run_zero hm]
    rfl
  | case3 m _ fuel m₁ hstep ih =>
    rw [runPaced_succ_of_ok hstep, run_succ_of_ok hstep]
    exact ih _
  | case4 m hm fuel e m₁ hstep =>
    have hm := Bool.of_not_eq_true hm
    rw [runPaced_succ_of_error hm hstep, run_succ_of_error hm hstep]
    rfl

/-- A paced run of `c` steps makes a pause between each two of them. -/
theorem Stops.runPaced (h : m.Stops c r m') (more pauses : Nat) :
    Machine.runPaced (c + more) pauses m = some (r, m', pauses + (c - 1)) := by
  induction h using Stops.induct generalizing pauses with
  | ended hm => exact runPaced_of_terminated hm _ pauses
  | failed hm hstep =>
    rw [Nat.add_comm]
    exact runPaced_succ_of_error hm hstep more pauses
  | @next m m₁ m' c r hstep hmore ih =>
    rw [Nat.add_right_comm, runPaced_succ_of_ok hstep, ih, Nat.add_sub_cancel]
    -- there is a pause behind this step just if it is not the last
    by_cases hc : c = 0
    · rw [if_pos (hmore.terminated_iff.2 hc), hc]
    · rw [if_neg (mt hmore.terminated_iff.1 hc), Nat.add_assoc, Nat.add_comm 1,
        Nat.sub_add_cancel (Nat.one_le_iff_ne_zero.2 hc)]

/-! ## What calls do -/

theorem call_run_eq_some_iff {answer : Answer} :
    m.call fuel .run = some (answer, m') ↔
      ∃ c ≤ fuel, m.Stops c answer.result m' ∧ answer.pauses = [] := by
  constructor
  · intro h
    obtain ⟨⟨r, m₁⟩, hrun, hx⟩ := Option.map_eq_some_iff.1 h
    obtain ⟨rfl, rfl⟩ := Prod.mk.inj hx
    obtain ⟨c, hc, hstops⟩ := stops_of_run hrun
    exact ⟨c, hc, hstops, rfl⟩
  · rintro ⟨c, hc, hstops, hpauses⟩
    obtain ⟨more, rfl⟩ := Nat.exists_eq_add_of_le hc
    rw [call, hstops.run more, Option.map_some, ← hpauses]

theorem call_runPaced_eq_some_iff {answer : Answer} {delay : Duration} :
    m.call fuel (.runPaced delay) = some (answer, m') ↔
      ∃ c ≤ fuel, m.Stops c answer.result m' ∧ answer.pauses = List.replicate (c - 1) delay := by
  constructor
  · intro h
    obtain ⟨⟨r, m₁, n⟩, hpaced, hx⟩ := Option.map_eq_some_iff.1 h
    obtain ⟨rfl, rfl⟩ := Prod.mk.inj hx
    have hrun := runPaced_eq_run fuel 0 m
    rw [hpaced] at hrun
    obtain ⟨c, hc, hstops⟩ := stops_of_run hrun.symm
    obtain ⟨more, rfl⟩ := Nat.exists_eq_add_of_le hc
    rw [hstops.runPaced more 0, Nat.zero_add] at hpaced
    obtain rfl := (Prod.mk.inj (Prod.mk.inj (Option.some.inj hpaced)).2).2
    exact ⟨c, hc, hstops, rfl⟩
  · rintro ⟨c, hc, hstops, hpauses⟩
    obtain ⟨more, rfl⟩ := Nat.exists_eq_add_of_le hc
    rw [call, hstops.runPaced more 0, Option.map_some, Nat.zero_add, ← hpauses]

/-- Every call makes some number of steps. -/
theorem exists_stepAll_of_call {k : Call} {answer : Answer}
    (h : m.call fuel k = some (answer, m')) : ∃ n, (stepAll n m).2 = m' := by
  cases k with
  | step => exact ⟨1, (Prod.mk.inj (Option.some.inj h)).2⟩
  | run =>
    obtain ⟨c, -, hstops, -⟩ := call_run_eq_some_iff.1 h
    exact ⟨c, hstops.reached⟩
  | runPaced delay =>
    obtain ⟨c, -, hstops, -⟩ := call_runPaced_eq_some_iff.1 h
    exact ⟨c, hstops.reached⟩

/-- What is kept by every step, and by everything that happens to the input device, is kept all
along. -/
theorem serve_keeps {I : Machine ω ι → Prop} {actions : List (Action ι)} {answers : List Answer}
    (hstep : ∀ m, I m → I m.step.2)
    (hsupply : ∀ change, .supply change ∈ actions → ∀ m, I m → I (m.supply change))
    (h : serve fuel actions m = some (answers, m')) (hm : I m) : I m' := by
  induction actions generalizing m answers with
  | nil =>
    obtain ⟨-, rfl⟩ := Prod.mk.inj (Option.some.inj h)
    exact hm
  | cons action actions ih =>
    have hmore := fun change hchange ↦ hsupply change (List.mem_cons_of_mem action hchange)
    cases action with
    | supply change => exact ih hmore h (hsupply change List.mem_cons_self m hm)
    | call k =>
      obtain ⟨answer, rest, m₁, -, hcall, hrest⟩ := serve_call_eq_some h
      obtain ⟨n, rfl⟩ := exists_stepAll_of_call hcall
      exact ih hmore hrest (stepAll_keeps hstep hm n)

/-! ## The counter of steps -/

/-- `m'` lies on the line of states that begins with `m`, where its counter says. -/
def IsBehind (m m' : Machine ω ι) : Prop :=
  m.steps ≤ m'.steps ∧ m' = (stepAll (m'.steps - m.steps) m).2

theorem IsBehind.refl (m : Machine ω ι) : m.IsBehind m := by
  refine ⟨Nat.le_refl _, ?_⟩
  rw [Nat.sub_self]
  rfl

theorem IsBehind.step (h : m.IsBehind m') : m.IsBehind m'.step.2 := by
  obtain ⟨hle, hm'⟩ := h
  have hsteps := step_steps m'
  cases hexecutes : m'.executes with
  | false =>
    rw [step_snd_of_not_executes hexecutes]
    exact ⟨hle, hm'⟩
  | true =>
    rw [hexecutes, if_pos rfl] at hsteps
    refine ⟨?_, ?_⟩
    · rw [hsteps]
      exact Nat.le_succ_of_le hle
    · rw [hsteps, Nat.succ_sub hle, stepAll_succ_snd, ← hm']

/-- A run that begins inside the program never complains that the program is over. -/
theorem Stops.ne_terminated (h : m.Stops c r m') (hip : m.ip ≤ m.program.size) (i : Nat) :
    r ≠ .error (.terminated i) := by
  induction h using Stops.induct with
  | ended hm => simp
  | @failed m m' e hm hstep =>
    intro he
    have hfails : m.step.1 = .error (.terminated i) := by rw [hstep, he]
    have hsize := (step_fst_eq_terminated_iff.1 hfails).2
    exact of_decide_eq_false hm (Nat.le_antisymm hip hsize)
  | @next m m₁ m' c r hstep _ ih =>
    have hle := step_le_size hip
    rw [hstep] at hle
    exact ih hle

/-! ## All ways of driving a machine agree -/

/-- **All ways of driving a machine agree.** Let a host make any calls, with looks at the machine in
between. Then the machine is the one that as many single steps lead to as its counter says. A run,
paced or not, stops where single steps would: well at the first state in which the program has come
to its end, or with the first error. Both kinds of run have the same result and lead to the same
machine, whatever the delay, and neither complains that the program is over. A run without pacing
makes no pause, and a paced run that makes `c` steps makes `c - 1` pauses of the given length,
whichever way it stops. -/
theorem driven_alike (hip : m.ip ≤ m.program.size) :
    (∀ fuel (calls : List Call) answers m', serve fuel (calls.map .call) m = some (answers, m') →
        m'.ip ≤ m'.program.size ∧ m.steps ≤ m'.steps ∧
          m' = (stepAll (m'.steps - m.steps) m).2) ∧
      ∀ fuel delay,
        (∀ answer m', m.call fuel .run = some (answer, m') ↔
          ∃ c ≤ fuel, m.Stops c answer.result m' ∧ answer.pauses = []) ∧
        (∀ answer m', m.call fuel (.runPaced delay) = some (answer, m') ↔
          ∃ c ≤ fuel, m.Stops c answer.result m' ∧
            answer.pauses = List.replicate (c - 1) delay) ∧
        (m.call fuel (.runPaced delay)).map (fun x ↦ (x.1.result, x.2)) =
          (m.call fuel .run).map (fun x ↦ (x.1.result, x.2)) ∧
        ∀ k answer m' i, k = .run ∨ k = .runPaced delay → m.call fuel k = some (answer, m') →
          answer.result ≠ .error (.terminated i) := by
  refine ⟨fun fuel calls answers m' h ↦ ?_, fun fuel delay ↦ ⟨?_, ?_, ?_, ?_⟩⟩
  · have hcalls : ∀ change, .supply change ∉ calls.map (Action.call (ι := ι)) := by simp
    refine ⟨?_, ?_⟩
    · exact serve_keeps (I := fun m ↦ m.ip ≤ m.program.size) (fun _ ↦ step_le_size)
        (fun change hchange ↦ absurd hchange (hcalls change)) h hip
    · exact serve_keeps (I := m.IsBehind) (fun _ ↦ IsBehind.step)
        (fun change hchange ↦ absurd hchange (hcalls change)) h (IsBehind.refl m)
  · exact fun answer m' ↦ call_run_eq_some_iff
  · exact fun answer m' ↦ call_runPaced_eq_some_iff
  · have hrun := runPaced_eq_run fuel 0 m
    rw [call, call, ← hrun, Option.map_map, Option.map_map, Option.map_map]
    rfl
  · rintro k answer m' i (rfl | rfl) h
    · obtain ⟨c, -, hstops, -⟩ := call_run_eq_some_iff.1 h
      exact hstops.ne_terminated hip i
    · obtain ⟨c, -, hstops, -⟩ := call_runPaced_eq_some_iff.1 h
      exact hstops.ne_terminated hip i

/-- On `+.+]` with an output that fails once a host makes a step, a run and a paced run. The run
stops at the failure, and the paced run goes on from there to the unmatched bracket, with a pause
between its two steps. -/
theorem driven_alike_resumed :
    let fault := FaultKind.brokenPipe.fault
    let delay := Duration.ofMilliseconds 5
    let m : Machine ScriptedOutput Queue :=
      { program := Program.ofString "+.+]"
        state := { output := some ⟨[some fault], #[]⟩, policy := .halt } }
    m.ip ≤ m.program.size ∧
      ∃ m', serve 4 ([Call.step, .run, .runPaced delay].map .call) m =
          some ([⟨.ok (), []⟩, ⟨.error (.device 1 '.' fault), []⟩,
            ⟨.error (.unmatched 3 .closing), [delay]⟩], m') ∧
        m'.steps = 3 ∧ m' = (stepAll 3 m).2 := by
  intro fault delay m
  have hip : m.ip ≤ m.program.size := Nat.zero_le _
  have hserve : ∃ m', serve 4 ([Call.step, .run, .runPaced delay].map .call) m =
      some ([⟨.ok (), []⟩, ⟨.error (.device 1 '.' fault), []⟩,
        ⟨.error (.unmatched 3 .closing), [delay]⟩], m') ∧ m'.steps = 3 := ⟨_, rfl, rfl⟩
  obtain ⟨m', hanswers, hsteps⟩ := hserve
  obtain ⟨-, -, hm'⟩ := (driven_alike hip).1 4 _ _ m' hanswers
  rw [hsteps] at hm'
  exact ⟨hip, m', hanswers, hsteps, hm'⟩

end Brainfuck.Machine
