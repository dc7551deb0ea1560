import Brainfuck.Proofs.Machine.Calls

/-!
# What failures leave behind

The three kinds of error leave three kinds of machine. Behind the end of the program nothing
happens. At a bracket without a partner nothing happens either, and nothing will: whether a machine
is stuck depends on its program, its instruction pointer and its tape, and a host can reach none of
them. It can only supply the input device, and that is not asked. A device that fails is different.
The machine has moved past the symbol, and a host that goes on finds the next one.
-/

namespace Brainfuck.Machine

/-! ## What a host does besides calls -/

/-- Whether an action is a call. -/
def Action.isCall {ι : Type} : Action ι → Bool
  | .call _ => true
  | .supply _ => false

/-- What becomes of an input device that nobody polls. -/
def Action.supplied {ι : Type} : List (Action ι) → ι → ι
  | [], d => d
  | .call _ :: actions, d => supplied actions d
  | .supply change :: actions, d => supplied actions (change d)

variable {ω ι : Type} {m : Machine ω ι} {side : Bracket}

theorem supply_supplied_nil (m : Machine ω ι) : m.supply (Action.supplied []) = m := by
  have hid : Action.supplied ([] : List (Action ι)) = id := rfl
  rw [supply, hid, Option.map_id]
  rfl

theorem supply_supplied_cons (change : ι → ι) (actions : List (Action ι)) (m : Machine ω ι) :
    m.supply (Action.supplied (.supply change :: actions)) =
      (m.supply change).supply (Action.supplied actions) := by
  rw [supply, supply, supply, Option.map_map]
  rfl

/-- The input device has no part in what a machine is stuck at. -/
theorem IsStuck.supply (h : m.IsStuck side) (change : ι → ι) : (m.supply change).IsStuck side := by
  cases side with
  | opening => exact h
  | closing => exact h

theorem IsStuck.not_terminated (h : m.IsStuck side) : m.terminated = false := by
  have hip : m.ip < m.program.size := by
    cases side with
    | opening => exact Program.lt_size_of_commandAt h.1
    | closing => exact Program.lt_size_of_commandAt h.1
  exact decide_eq_false (Nat.ne_of_lt hip)

variable [OutputDevice ω] [InputDevice ι]

/-! ## Stuck machines -/

theorem IsStuck.step_eq (h : m.IsStuck side) : m.step = (.error (.unmatched m.ip side), m) :=
  step_of_target_error (target_of_isStuck h)

/-- A stuck machine answers every call with the same error, and stays as it is. -/
theorem IsStuck.call_eq (h : m.IsStuck side) (fuel : Nat) (k : Call) :
    m.call (fuel + 1) k = some (⟨.error (.unmatched m.ip side), []⟩, m) := by
  have hstops := stops_of_error h.not_terminated h.step_eq
  have hfuel : 1 ≤ fuel + 1 := Nat.succ_pos fuel
  cases k with
  | step => rw [call, h.step_eq]
  | run => exact call_run_eq_some_iff.2 ⟨1, hfuel, hstops, rfl⟩
  | runPaced delay => exact call_runPaced_eq_some_iff.2 ⟨1, hfuel, hstops, rfl⟩

/-- Whatever a host does, a stuck machine gives the same error each time, and only its input device
shows that anything was done. -/
theorem IsStuck.serve_eq (h : m.IsStuck side) (fuel : Nat) (actions : List (Action ι)) :
    serve (fuel + 1) actions m =
      some (List.replicate (actions.countP Action.isCall) ⟨.error (.unmatched m.ip side), []⟩,
        m.supply (Action.supplied actions)) := by
  induction actions generalizing m with
  | nil =>
    rw [supply_supplied_nil]
    rfl
  | cons action actions ih =>
    cases action with
    | call k =>
      rw [serve_call (h.call_eq fuel k), ih h, List.countP_cons_of_pos rfl, List.replicate_succ]
      rfl
    | supply change =>
      rw [serve, ih (h.supply change), List.countP_cons_of_neg Bool.false_ne_true,
        supply_supplied_cons]
      rfl

/-! ## Errors and what they leave -/

/-- A step succeeds unless there is a reason for one of the errors. -/
theorem step_fst_eq_ok_iff (hip : m.ip ≤ m.program.size) :
    m.step.1 = .ok () ↔
      m.ip ≠ m.program.size ∧ (∀ side, ¬ m.IsStuck side) ∧
        ¬ (m.state.policy = .halt ∧ ∃ op f, m.command? = some op ∧ m.state.DeviceFails f op) := by
  have hok : m.step.1 = .ok () ↔ ∀ e, m.step.1 ≠ .error e := by
    cases m.step.1 with
    | error e => simp
    | ok => simp
  simp only [hok, ne_eq, step_fst_eq_error_iff]
  constructor
  · intro h
    refine ⟨fun hend ↦ ?_, fun side hstuck ↦ ?_, ?_⟩
    · exact h _ (Or.inl ⟨rfl, Nat.le_of_eq hend.symm⟩)
    · exact h _ (Or.inr (Or.inl ⟨side, rfl, hstuck⟩))
    · rintro ⟨hpolicy, op, f, hop, hfails⟩
      exact h _ (Or.inr (Or.inr ⟨hpolicy, op, f, hop, hfails, rfl⟩))
  · rintro ⟨hend, hstuck, hfails⟩ e (⟨-, hsize⟩ | ⟨side, -, h⟩ | ⟨hpolicy, op, f, hop, h, -⟩)
    · exact hend (Nat.le_antisymm hip hsize)
    · exact hstuck side h
    · exact hfails ⟨hpolicy, op, f, hop, h⟩

/-- **Each error has one cause, and leaves what it should.** In every state that a host can bring a
machine into, a step complains of the end of the program exactly there; of an unmatched bracket
exactly if there is one under the instruction pointer and the cell asks for the jump; of a device
exactly if the policy is to halt, the symbol uses a device that is there, and the device fails; and
otherwise it succeeds. The first two leave the machine as it was. So from an unmatched bracket on
every call gives this error again, whatever is done to the input device in between, and nothing
changes but that device. Where a device fails, the machine has moved past the symbol, one more step
and one more failure are counted, and the device has been used. -/
theorem each_error_has_one_cause (hip : m.ip ≤ m.program.size) :
    ((∀ i, m.step.1 = .error (.terminated i) ↔ i = m.ip ∧ m.ip = m.program.size) ∧
      (∀ i side, m.step.1 = .error (.unmatched i side) ↔ i = m.ip ∧ m.IsStuck side) ∧
      (∀ i c f, m.step.1 = .error (.device i c f) ↔
        i = m.ip ∧ m.state.policy = .halt ∧
          ∃ op, m.command? = some op ∧ c = op.toChar ∧ m.state.DeviceFails f op) ∧
      (m.step.1 = .ok () ↔
        m.ip ≠ m.program.size ∧ (∀ side, ¬ m.IsStuck side) ∧
          ¬ (m.state.policy = .halt ∧
            ∃ op f, m.command? = some op ∧ m.state.DeviceFails f op))) ∧
    (∀ i, m.step.1 = .error (.terminated i) → m.step.2 = m) ∧
    (∀ i side, m.step.1 = .error (.unmatched i side) →
      m.step.2 = m ∧
        ∀ fuel actions, serve (fuel + 1) actions m =
          some (List.replicate (actions.countP Action.isCall) ⟨.error (.unmatched i side), []⟩,
            m.supply (Action.supplied actions))) ∧
    (∀ i c f, m.step.1 = .error (.device i c f) →
      ∃ op, m.command? = some op ∧ c = op.toChar ∧
        m.step.2 =
          { m with
            ip := m.ip + 1
            steps := m.steps + 1
            state := (m.state.afterUse op).counted }) ∧
    ∀ fuel actions answers m', serve fuel actions m = some (answers, m') →
      m'.ip ≤ m'.program.size := by
  have hend : m.program.size ≤ m.ip ↔ m.ip = m.program.size :=
    ⟨Nat.le_antisymm hip, fun h ↦ Nat.le_of_eq h.symm⟩
  refine ⟨⟨fun i ↦ ?_, fun i side ↦ step_fst_eq_unmatched_iff,
    fun i c f ↦ step_fst_eq_device_iff, step_fst_eq_ok_iff hip⟩, fun i h ↦ ?_, fun i side h ↦ ?_,
    fun i c f h ↦ ?_, fun fuel actions answers m' h ↦ ?_⟩
  · rw [step_fst_eq_terminated_iff, hend]
  · obtain ⟨-, hsize⟩ := step_fst_eq_terminated_iff.1 h
    rw [step_of_terminated (decide_eq_true (hend.1 hsize))]
  · obtain ⟨rfl, hstuck⟩ := step_fst_eq_unmatched_iff.1 h
    refine ⟨?_, hstuck.serve_eq⟩
    rw [hstuck.step_eq]
  · obtain ⟨-, hpolicy, op, hop, hc, hfails⟩ := step_fst_eq_device_iff.1 h
    refine ⟨op, hop, hc, ?_⟩
    rw [step_of_deviceFails hpolicy hop hfails]
  · exact serve_keeps (I := fun m ↦ m.ip ≤ m.program.size) (fun _ ↦ step_le_size)
      (fun _ _ _ ↦ id) h hip

/-- On `+.]` the output refuses its byte and the machine moves on to the unmatched bracket. There it
stays, and what is sent over the channel meanwhile is only kept. -/
theorem each_error_has_one_cause_refused :
    let fault := FaultKind.brokenPipe.fault
    let m : Machine Refusal Channel :=
      { program := Program.ofString "+.]"
        state := { output := some ⟨fault⟩, input := some {}, policy := .halt } }
    let refused := (stepAll 1 m).2
    let stuck := (stepAll 2 m).2
    refused.ip ≤ refused.program.size ∧ refused.step.1 = .error (.device 1 '.' fault) ∧
      (∃ op, refused.command? = some op ∧ '.' = op.toChar ∧
        refused.step.2 =
          { refused with
            ip := refused.ip + 1
            steps := refused.steps + 1
            state := (refused.state.afterUse op).counted }) ∧
      stuck.ip ≤ stuck.program.size ∧ stuck.step.1 = .error (.unmatched 2 .closing) ∧
      serve 1 [.call .run, .supply (·.send [65]), .call .step, .supply (·.send [66]),
          .call (.runPaced (Duration.ofMilliseconds 5))] stuck =
        some (List.replicate 3 ⟨.error (.unmatched 2 .closing), []⟩,
          stuck.supply fun c ↦ (c.send [65]).send [66]) := by
  intro fault m refused stuck
  have hrefused : refused.ip ≤ refused.program.size := by decide
  have hfails : refused.step.1 = .error (.device 1 '.' fault) := by rfl
  have hstuck : stuck.ip ≤ stuck.program.size := by decide
  have hunmatched : stuck.step.1 = .error (.unmatched 2 .closing) := by rfl
  obtain ⟨-, -, -, hdevice, -⟩ := each_error_has_one_cause hrefused
  obtain ⟨-, -, hbracket, -⟩ := each_error_has_one_cause hstuck
  exact ⟨hrefused, hfails, hdevice 1 '.' fault hfails, hstuck, hunmatched,
    (hbracket 2 .closing hunmatched).2 0 _⟩

end Brainfuck.Machine
