import Brainfuck.CommandLine.Launch
import Brainfuck.Proofs.Machine.Lockstep

/-!
# Runs that a session follows

A session makes the steps that a run makes, logs them, and may be interrupted in a pause. Neither
the log nor the pauses have any part in the steps. So where two machines run in lockstep, two
sessions that follow them stop together and in the same way, as long as the interruptions do not
tell the machines apart. Whether the logs agree too depends on jumps and reports, so what holds
between the logs is a relation of its own, which is carried along.

What was logged before a run only stands in front of the rest. So sessions that differ in what they
log before their runs are compared as if they had logged nothing yet.
-/

namespace Brainfuck.CommandLine

variable {ω ω' ι ι' : Type}

/-! ## How a session starts and ends -/

/-- An input that can be opened is there if it is attached. -/
theorem Launch.start_ok (l : Launch) (attached : Bool) (output : ω) (input : ι)
    (ready : Option Bool) :
    l.start attached output (.ok input) ready =
      .ok (l.preface attached ready, l.machine output (if attached then some input else none)) := by
  match attached with
  | false => rfl
  | true => rfl

/-- The exit code depends on how the run stops, and on nothing else. -/
theorem Launch.conclude_code {l l' : Launch} {x : Stop × String × Machine ω ι}
    {x' : Stop × String × Machine ω' ι'} (h : x.1 = x'.1) :
    (l.conclude x).exit.code = (l'.conclude x').exit.code := by
  obtain ⟨stop, log, m⟩ := x
  obtain ⟨stop', log', m'⟩ := x'
  obtain rfl : stop = stop' := h
  cases stop with
  | interrupted => rfl
  | finished result =>
    cases result with
    | error e => rfl
    | ok => rfl

/-- What is logged before stays in front. -/
theorem Launch.stderr_conclude_append (l : Launch) (stop : Stop) (log log' : String)
    (m : Machine ω ι) :
    (l.conclude (stop, log ++ log', m)).exit.stderr =
      log ++ (l.conclude (stop, log', m)).exit.stderr := by
  match stop with
  | .interrupted => rfl
  | .finished result => exact String.append_assoc ..

theorem Launch.machine_conclude (l : Launch) (x : Stop × String × Machine ω ι) :
    (l.conclude x).machine = some x.2.2 := by
  match x with
  | (.interrupted, log, m) => rfl
  | (.finished result, log, m) => rfl

/-! ## What is logged -/

/-- A machine that has reported something adds to a log what it would add to an empty one. -/
theorem logReports_eq_append (f : Filter) (reported : Nat) (log : String) (m : Machine ω ι) :
    logReports f reported log m = log ++ logReports f reported "" m := by
  rw [logReports, logReports, ← Array.foldl_toList, ← Array.foldl_toList]
  induction (m.state.reports.extract reported).toList generalizing log with
  | nil => rw [List.foldl_nil, List.foldl_nil, String.append_empty]
  | cons e rest ih =>
    rw [List.foldl_cons, List.foldl_cons, ih (log ++ _), ih ("" ++ _), String.empty_append,
      String.append_assoc]

variable [OutputDevice ω] [OutputDevice ω'] [InputDevice ι] [InputDevice ι']

section

variable {f : Filter} {jumps paced : Bool} {interrupted : Machine ω ι → Bool} {m m₁ : Machine ω ι}
  {e : RuntimeError}

/-! ## What a turn does -/

/-- A logged step is a step and what it adds to the log. -/
theorem loggedStep_eq {r : Except RuntimeError Unit} (hstep : m.step = (r, m₁)) (reported : Nat)
    (log : String) :
    loggedStep f jumps reported log m = (r, (loggedStep f jumps reported log m).2.1, m₁) := by
  have hresult := loggedStep_result f jumps reported log m
  have hmachine := loggedStep_machine f jumps reported log m
  rw [hstep] at hresult hmachine
  exact Prod.ext hresult (Prod.ext rfl hmachine)

/-- A step adds to a log what it would add to an empty one. -/
theorem loggedStep_eq_append (f : Filter) (jumps : Bool) (reported : Nat) (log : String)
    (m : Machine ω ι) :
    (loggedStep f jumps reported log m).2.1 = log ++ (loggedStep f jumps reported "" m).2.1 := by
  rw [loggedStep, loggedStep]
  split
  · exact logReports_eq_append f reported log _
  · rw [String.empty_append]

theorem turn_of_terminated (h : m.terminated = true) (log : String) :
    turn f jumps paced log m = .over (.ok ()) log m := by
  rw [turn, if_pos h]

theorem turn_of_error (h : m.terminated = false) (hstep : m.step = (.error e, m₁)) (log : String) :
    turn f jumps paced log m =
      .over (.error e) (loggedStep f jumps m.state.reports.size log m).2.1 m₁ := by
  rw [turn, h, if_neg Bool.false_ne_true, loggedStep_eq hstep]

theorem turn_of_ok (hstep : m.step = (.ok (), m₁)) (log : String) :
    turn f jumps paced log m =
      .next (paced && !m₁.terminated) (loggedStep f jumps m.state.reports.size log m).2.1 m₁ := by
  have h := Machine.terminated_eq_false_of_step hstep (by simp)
  rw [turn, h, if_neg Bool.false_ne_true, loggedStep_eq hstep]

/-! ## What following does -/

theorem follow_of_terminated (h : m.terminated = true) (fuel : Nat) (log : String) :
    follow f jumps paced interrupted fuel log m = some (.finished (.ok ()), log, m) := by
  match fuel with
  | 0 => rw [follow, if_pos h]
  | fuel + 1 => rw [follow, turn_of_terminated h]

theorem follow_zero (h : m.terminated = false) (log : String) :
    follow f jumps paced interrupted 0 log m = none := by
  rw [follow, h, if_neg Bool.false_ne_true]

theorem follow_succ_of_error (h : m.terminated = false) (hstep : m.step = (.error e, m₁))
    (fuel : Nat) (log : String) :
    follow f jumps paced interrupted (fuel + 1) log m =
      some (.finished (.error e), (loggedStep f jumps m.state.reports.size log m).2.1, m₁) := by
  rw [follow, turn_of_error h hstep]

theorem follow_succ_of_ok (hstep : m.step = (.ok (), m₁)) (fuel : Nat) (log : String) :
    follow f jumps paced interrupted (fuel + 1) log m =
      if paced && !m₁.terminated && interrupted m₁ then
        some (.interrupted, (loggedStep f jumps m.state.reports.size log m).2.1, m₁)
      else
        follow f jumps paced interrupted fuel
          (loggedStep f jumps m.state.reports.size log m).2.1 m₁ := by
  rw [follow, turn_of_ok hstep]

/-- What has been logged before does not matter to what comes. -/
theorem follow_eq_map (fuel : Nat) (log : String) (m : Machine ω ι) :
    follow f jumps paced interrupted fuel log m =
      (follow f jumps paced interrupted fuel "" m).map fun y ↦ (y.1, log ++ y.2.1, y.2.2) := by
  induction fuel, m using Machine.run.induct generalizing log with
  | case1 fuel m hm =>
    rw [follow_of_terminated hm, follow_of_terminated hm, Option.map_some, String.append_empty]
  | case2 m hm =>
    have hm := Bool.of_not_eq_true hm
    rw [follow_zero hm, follow_zero hm, Option.map_none]
  | case3 m _ fuel m₁ hstep ih =>
    rw [follow_succ_of_ok hstep, follow_succ_of_ok hstep, loggedStep_eq_append _ _ _ log]
    split
    · rfl
    · rw [ih, ih (loggedStep f jumps m.state.reports.size "" m).2.1, Option.map_map]
      simp only [Function.comp_def, String.append_assoc]
  | case4 m hm fuel e m₁ hstep =>
    have hm := Bool.of_not_eq_true hm
    rw [follow_succ_of_error hm hstep, follow_succ_of_error hm hstep,
      loggedStep_eq_append _ _ _ log, Option.map_some]

end

/-! ## Two sessions side by side -/

variable {R : Machine ω ι → Machine ω' ι' → Prop} {S : String → String → Prop}
  {m : Machine ω ι} {m' : Machine ω' ι'}

/-- Sessions that follow two machines in lockstep stop together. A relation between their logs that
every step keeps holds in the end too. -/
theorem follow_rel {f f' : Filter} {jumps paced : Bool} {interrupted : Machine ω ι → Bool}
    {interrupted' : Machine ω' ι' → Bool} (hR : Machine.Lockstep R)
    (hinterrupted : ∀ m m', R m m' → interrupted m = interrupted' m')
    (hlog : ∀ m m' log log', R m m' → S log log' →
      S (loggedStep f jumps m.state.reports.size log m).2.1
        (loggedStep f' jumps m'.state.reports.size log' m').2.1)
    (h : R m m') {log log' : String} (hlogs : S log log') (fuel : Nat) :
    Option.Rel (fun x x' ↦ x.1 = x'.1 ∧ S x.2.1 x'.2.1 ∧ R x.2.2 x'.2.2)
      (follow f jumps paced interrupted fuel log m)
      (follow f' jumps paced interrupted' fuel log' m') := by
  -- the recursion is the one of a run; what is logged on the way is generalised
  induction fuel, m using Machine.run.induct generalizing m' log log' with
  | case1 fuel m hm =>
    rw [follow_of_terminated hm, follow_of_terminated ((hR.terminated h).symm.trans hm)]
    exact .some ⟨rfl, hlogs, h⟩
  | case2 m hm =>
    have hm := Bool.of_not_eq_true hm
    rw [follow_zero hm, follow_zero ((hR.terminated h).symm.trans hm)]
    exact .none
  | case3 m _ fuel m₁ hstep ih =>
    obtain ⟨m₁', hstep', h₁⟩ := hR.exists_step h hstep
    have hlogs₁ := hlog m m' log log' h hlogs
    rw [follow_succ_of_ok hstep, follow_succ_of_ok hstep', hR.terminated h₁,
      hinterrupted m₁ m₁' h₁]
    split
    · exact .some ⟨rfl, hlogs₁, h₁⟩
    · exact ih h₁ hlogs₁
  | case4 m hm fuel e m₁ hstep =>
    have hm := Bool.of_not_eq_true hm
    obtain ⟨m₁', hstep', h₁⟩ := hR.exists_step h hstep
    rw [follow_succ_of_error hm hstep,
      follow_succ_of_error ((hR.terminated h).symm.trans hm) hstep']
    exact .some ⟨rfl, hlog m m' log log' h hlogs, h₁⟩

/-! ## Sessions of a launch -/

namespace Launch

/-- A session whose input can be opened follows the run of its machine and draws the conclusion. -/
theorem session_ok (l : Launch) (attached : Bool) (output : ω) (input : ι) (ready : Option Bool)
    (interrupted : Machine ω ι → Bool) (fuel : Nat) :
    l.session attached output (.ok input) ready interrupted fuel =
      (l.followFrom interrupted fuel (l.preface attached ready)
        (l.machine output (if attached then some input else none))).map l.conclude := by
  rw [session, start_ok]

end Launch

end Brainfuck.CommandLine
