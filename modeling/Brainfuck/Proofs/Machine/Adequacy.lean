import Brainfuck.Machine.Evaluation
import Brainfuck.Proofs.Machine.Failures
import Brainfuck.Proofs.Machine.Jumps
import Brainfuck.Proofs.Machine.Steps
import Brainfuck.Proofs.Program.Blocks

/-!
# The machine evaluates blocks

A machine knows nothing of loops. It looks at one symbol at a time, and a `]` sends it to the symbol
behind the partner, not to the `[` itself. Still a machine on a program with balanced brackets does
what the block of the program means: it comes to the end in some state exactly if the block
evaluates to this state, in as many steps, it fails exactly if the evaluation fails, and it runs
forever exactly if there is no evaluation.

## From evaluations to machines

An evaluation is followed by induction on how it was made, for a block at any place of any program.
The rule for a turn of a loop evaluates the loop again, as if control went back to the `[`. It does
not, but a `[` and its `]` make the same step: into the body, or behind the loop, according to the
cell under the head. So the steps that follow from the `]` are those that would follow from the `[`.

## From machines to evaluations

In the other direction there is nothing to do induction on but the number of steps. After `n` steps
either the block has been evaluated, in `n` steps at most, or control is still inside the block. A
machine that has stopped is not inside the block of its whole program.
-/

namespace Brainfuck

/-- Where control is when a block at index `i` has been evaluated: behind the block, or behind the
symbol that failed. -/
def Block.exit (i : Nat) (b : Block) : Except RuntimeError Unit → Nat
  | .ok () => i + b.size
  | .error e => e.ip + 1

theorem Block.exit_symbol (i : Nat) (c : Char) (plain : Plain c) (rest : Block)
    (r : Except RuntimeError Unit) : exit i (.symbol c plain rest) r = rest.exit (i + 1) r := by
  cases r with
  | error e => rfl
  | ok => rw [exit, exit, size, Nat.add_assoc, Nat.add_comm rest.size]

theorem Block.exit_loop (i : Nat) (body rest : Block) (r : Except RuntimeError Unit) :
    exit i (.loop body rest) r = rest.exit (i + body.size + 2) r := by
  cases r with
  | error e => rfl
  | ok =>
    rw [exit, exit, size]
    omega

variable {ω ι : Type} [OutputDevice ω] [InputDevice ι] {p : Program} {i : Nat} {s : State ω ι}

/-- To evaluate a loop takes at least the step on its `[`. -/
theorem Evaluates.pos_of_loop {body rest : Block} {n : Nat} {r : Except RuntimeError Unit}
    {t : State ω ι} (h : Evaluates i (.loop body rest) s n r t) : 0 < n := by
  cases h with
  | leave => omega
  | turn => omega
  | failTurn => omega

theorem Evaluates.policy_eq {b : Block} {n : Nat} {r : Except RuntimeError Unit} {t : State ω ι}
    (h : Evaluates i b s n r t) : t.policy = s.policy := by
  induction h with
  | nil => rfl
  | @symbol i n c plain rest s u t r work more ih =>
    have hu := State.exec_policy s i (Command.ofChar? c)
    rw [work] at hu
    exact ih.trans hu
  | @fail i c plain rest s t e work =>
    have ht := State.exec_policy s i (Command.ofChar? c)
    rw [work] at ht
    exact ht
  | leave zero more ih => exact ih
  | turn nonzero once more ihOnce ihMore => exact ihMore.trans ihOnce
  | failTurn nonzero once ih => exact ih

/-- An evaluation fails only if the policy is to halt, and then at a `.` or a `,` of the block. -/
theorem Evaluates.device_of_error {b : Block} {n : Nat} {r : Except RuntimeError Unit}
    {e : RuntimeError} {t : State ω ι} (h : Evaluates i b s n r t) (hr : r = .error e)
    (hb : p.HasBlock i b) :
    s.policy = .halt ∧ ∃ op f, p.commandAt e.ip = some op ∧ (op = .output ∨ op = .input) ∧
      e = .device e.ip op.toChar f := by
  induction h with
  | nil => cases hr
  | @symbol i n c plain rest s u t r work more ih =>
    obtain ⟨hpolicy, hdevice⟩ := ih hr hb.2
    have hu := State.exec_policy s i (Command.ofChar? c)
    rw [work] at hu
    exact ⟨hu.symm.trans hpolicy, hdevice⟩
  | @fail i c plain rest s t e' work =>
    obtain rfl := Except.error.inj hr
    obtain ⟨hpolicy, op, f, hop, hkind, rfl⟩ := State.exec_eq_error work
    refine ⟨hpolicy, op, f, ?_, hkind, rfl⟩
    exact (Program.commandAt_of_getElem? hb.1).trans hop
  | leave zero more ih => exact ih hr hb.2.2.2
  | turn nonzero once more ihOnce ihMore =>
    obtain ⟨hpolicy, hdevice⟩ := ihMore hr hb
    exact ⟨once.policy_eq.symm.trans hpolicy, hdevice⟩
  | failTurn nonzero once ih => exact ih hr hb.2.1

namespace Machine

/-! ## One step -/

theorem step_symbol {c : Char} {plain : Plain c} {rest : Block}
    (h : p.HasBlock i (.symbol c plain rest)) (s : State ω ι) (steps : Nat) :
    step ⟨p, i, steps, s⟩ =
      ((s.exec i (Command.ofChar? c)).1,
        ⟨p, i + 1, steps + 1, (s.exec i (Command.ofChar? c)).2⟩) := by
  have hcommand := Program.commandAt_of_getElem? h.1
  have hip : i < p.size := (Array.getElem?_eq_some_iff.1 h.1).1
  have htarget : target (⟨p, i, steps, s⟩ : Machine ω ι) = .ok (i + 1) := by
    refine target_of_ne hip ?_ ?_
    · rw [command?, hcommand]
      exact plain.1
    · rw [command?, hcommand]
      exact plain.2
  rw [step_of_target_ok htarget, command?, hcommand]

/-- A `[` leads behind its loop, or into it. -/
theorem step_start {body rest : Block} (h : p.HasBlock i (.loop body rest)) (s : State ω ι)
    (steps : Nat) :
    step ⟨p, i, steps, s⟩ =
      (.ok (), ⟨p, if s.cell = 0 then i + body.size + 2 else i + 1, steps + 1, s⟩) := by
  have hstart : command? (⟨p, i, steps, s⟩ : Machine ω ι) = some .loopStart := h.1
  have hjump := (Program.jumpForward_eq_ok_iff h.1).2 h.isLoop
  have htarget : target (⟨p, i, steps, s⟩ : Machine ω ι) =
      .ok (if s.cell = 0 then i + body.size + 2 else i + 1) := by
    rw [target_of_start hstart, cell]
    split
    · rw [hjump, show i + 1 + body.size + 1 = i + body.size + 2 by omega]
    · rfl
  rw [step_of_target_ok htarget, hstart]
  rfl

/-- A `]` leads to where its `[` leads. -/
theorem step_end {body rest : Block} (h : p.HasBlock i (.loop body rest)) (s : State ω ι)
    (steps : Nat) :
    step ⟨p, i + 1 + body.size, steps, s⟩ = step ⟨p, i, steps, s⟩ := by
  have hend : command? (⟨p, i + 1 + body.size, steps, s⟩ : Machine ω ι) = some .loopEnd := h.2.2.1
  have hjump := (Program.jumpBackward_eq_ok_iff h.2.2.1).2 h.isLoop
  have htarget : target (⟨p, i + 1 + body.size, steps, s⟩ : Machine ω ι) =
      .ok (if s.cell = 0 then i + body.size + 2 else i + 1) := by
    rw [target_of_end hend, cell]
    split
    · rw [show i + 1 + body.size + 1 = i + body.size + 2 by omega]
    · exact hjump
  rw [step_start h s steps, step_of_target_ok htarget, hend]
  rfl

theorem step_start_of_zero {body rest : Block} (h : p.HasBlock i (.loop body rest))
    (hzero : s.cell = 0) (steps : Nat) :
    step ⟨p, i, steps, s⟩ = (.ok (), ⟨p, i + body.size + 2, steps + 1, s⟩) := by
  rw [step_start h s steps, if_pos hzero]

theorem step_start_of_nonzero {body rest : Block} (h : p.HasBlock i (.loop body rest))
    (hnonzero : s.cell ≠ 0) (steps : Nat) :
    step ⟨p, i, steps, s⟩ = (.ok (), ⟨p, i + 1, steps + 1, s⟩) := by
  rw [step_start h s steps, if_neg hnonzero]

/-! ## From evaluations to machines -/

/-- An evaluation of a block is what a machine does at the block's place. -/
theorem stepMany_of_evaluates {b : Block} {n : Nat} {r : Except RuntimeError Unit}
    {t : State ω ι} (h : Evaluates i b s n r t) (hb : p.HasBlock i b) (steps : Nat) :
    stepMany n ⟨p, i, steps, s⟩ = (r, ⟨p, b.exit i r, steps + n, t⟩) := by
  induction h generalizing steps with
  | nil => rfl
  | @symbol i n c plain rest s u t r work more ih =>
    have hstep := step_symbol hb s steps
    rw [work] at hstep
    rw [stepMany_succ_of_ok hstep, ih hb.2, Block.exit_symbol, Nat.add_assoc steps,
      Nat.add_comm 1]
  | @fail i c plain rest s t e work =>
    have hstep := step_symbol hb s steps
    rw [work] at hstep
    obtain ⟨-, op, f, -, -, rfl⟩ := State.exec_eq_error work
    exact stepMany_succ_of_error hstep 0
  | @leave i n body rest s t r zero more ih =>
    have hstep := step_start_of_zero hb zero steps
    rw [stepMany_succ_of_ok hstep, ih hb.2.2.2, Block.exit_loop, Nat.add_assoc steps,
      Nat.add_comm 1]
  | @turn i a b body rest s u t r nonzero once more ihOnce ihMore =>
    have hstep := step_start_of_nonzero hb nonzero steps
    have hbody := stepMany_succ_of_ok hstep a
    rw [ihOnce hb.2.1] at hbody
    -- after the body control is on the `]`, which steps like the `[` from which `more` goes on
    have hend := step_end hb u (steps + 1 + a)
    rw [stepMany_add_of_ok hbody]
    refine (stepMany_eq_of_step_eq more.pos_of_loop hend).trans ?_
    rw [ihMore hb, show steps + 1 + a + b = steps + (a + 1 + b) by omega]
  | @failTurn i a body rest s t e nonzero once ih =>
    have hstep := step_start_of_nonzero hb nonzero steps
    rw [stepMany_succ_of_ok hstep, ih hb.2.1, Nat.add_assoc steps, Nat.add_comm 1]
    rfl

/-! ## From machines to evaluations -/

/-- After `n` steps, none of which fails, control is in front of index `k`. -/
def IsBefore (k n : Nat) (m : Machine ω ι) : Prop :=
  ∃ m', stepMany n m = (.ok (), m') ∧ m'.ip < k

theorem isBefore_zero {k : Nat} {m : Machine ω ι} (h : m.ip < k) : IsBefore k 0 m := ⟨m, rfl, h⟩

theorem IsBefore.of_step {k l n : Nat} {m m' : Machine ω ι} (h : IsBefore k n m')
    (hstep : m.step = (.ok (), m')) (hle : k ≤ l) : IsBefore l (n + 1) m := by
  obtain ⟨m₁, hm₁, hip⟩ := h
  refine ⟨m₁, ?_, Nat.lt_of_lt_of_le hip hle⟩
  rw [stepMany_succ_of_ok hstep, hm₁]

/-- After the body of a loop control is as far as it would be from the `[`. -/
theorem IsBefore.of_body {a k n : Nat} {body rest : Block} {s u : State ω ι} {steps : Nat}
    (hb : p.HasBlock i (.loop body rest)) (hnonzero : s.cell ≠ 0)
    (hbody : Evaluates (i + 1) body s a (.ok ()) u) (hk : i + 1 + body.size < k)
    (h : IsBefore k n ⟨p, i, steps + 1 + a, u⟩) : IsBefore k (a + 1 + n) ⟨p, i, steps, s⟩ := by
  have hturn := stepMany_succ_of_ok (step_start_of_nonzero hb hnonzero steps) a
  rw [stepMany_of_evaluates hbody hb.2.1] at hturn
  obtain ⟨m, hm, hip⟩ := h
  cases n with
  | zero => exact ⟨_, hturn, hk⟩
  | succ n =>
    refine ⟨m, ?_, hip⟩
    rw [stepMany_add_of_ok hturn, ← hm]
    exact stepMany_eq_of_step_eq (Nat.succ_pos n) (step_end hb u (steps + 1 + a))

/-- After `n` steps from the front of a block either the block has been evaluated, in `n` steps at
most, or control is still inside it. -/
theorem evaluates_or_isBefore (n : Nat) {b : Block} (hb : p.HasBlock i b) (s : State ω ι)
    (steps : Nat) :
    (∃ a r t, a ≤ n ∧ Evaluates i b s a r t) ∨ IsBefore (i + b.size) n ⟨p, i, steps, s⟩ := by
  induction n using Nat.strongRecOn generalizing i b s steps with
  | ind n ih =>
    cases b with
    | nil => exact Or.inl ⟨0, .ok (), s, Nat.zero_le n, .nil⟩
    | symbol c plain rest =>
      rw [Block.size]
      cases n with
      | zero => exact Or.inr (isBefore_zero (by simp only; omega))
      | succ n =>
        have hstep := step_symbol hb s steps
        rcases hwork : s.exec i (Command.ofChar? c) with ⟨e | _, u⟩
        · exact Or.inl ⟨1, .error e, u, Nat.le_add_left 1 n, .fail hwork⟩
        · rw [hwork] at hstep
          rcases ih n (Nat.lt_succ_self n) hb.2 u (steps + 1) with ⟨a, r, t, ha, hrest⟩ | hin
          · exact Or.inl ⟨a + 1, r, t, Nat.succ_le_succ ha, .symbol hwork hrest⟩
          · exact Or.inr (hin.of_step hstep (by omega))
    | loop body rest =>
      rw [Block.size]
      cases n with
      | zero => exact Or.inr (isBefore_zero (by simp only; omega))
      | succ n =>
        by_cases hzero : s.cell = 0
        · have hstep := step_start_of_zero hb hzero steps
          rcases ih n (Nat.lt_succ_self n) hb.2.2.2 s (steps + 1) with ⟨a, r, t, ha, hrest⟩ | hin
          · exact Or.inl ⟨a + 1, r, t, Nat.succ_le_succ ha, .leave hzero hrest⟩
          · exact Or.inr (hin.of_step hstep (by omega))
        · have hstep := step_start_of_nonzero hb hzero steps
          rcases ih n (Nat.lt_succ_self n) hb.2.1 s (steps + 1) with ⟨a, r, u, ha, hbody⟩ | hin
          · cases r with
            | error e =>
              exact Or.inl ⟨a + 1, .error e, u, Nat.succ_le_succ ha, .failTurn hzero hbody⟩
            | ok =>
              -- the `n - a` steps left after this turn are fewer than `n + 1`
              rcases ih (n - a) (by omega) hb u (steps + 1 + a) with ⟨d, r, t, hd, hmore⟩ | hin
              · exact Or.inl ⟨a + 1 + d, r, t, by omega, .turn hzero hbody hmore⟩
              · rw [Block.size] at hin
                have hturn := hin.of_body hb hzero hbody (by omega)
                rw [show a + 1 + (n - a) = n + 1 by omega] at hturn
                exact Or.inr hturn
          · exact Or.inr (hin.of_step hstep (by omega))

/-! ## Whole programs -/

section Whole

variable {b : Block} (hb : b.text = p.toList)

include hb

theorem exit_ok_eq_size : b.exit 0 (.ok ()) = p.size := by
  rw [Block.exit, Nat.zero_add, ← Block.length_text, hb, Array.length_toList]

theorem run_of_evaluates {n : Nat} {r : Except RuntimeError Unit} {t : State ω ι}
    (h : Evaluates 0 b s n r t) (steps : Nat) :
    run n ⟨p, 0, steps, s⟩ = some (r, ⟨p, b.exit 0 r, steps + n, t⟩) := by
  have hblock := Program.hasBlock_zero hb
  have hsteps := stepMany_of_evaluates h hblock steps
  cases r with
  | error e =>
    refine run_of_stepMany_error hsteps fun ip hip ↦ ?_
    obtain ⟨-, op, f, -, -, he⟩ := h.device_of_error rfl hblock
    rw [hip] at he
    cases he
  | ok =>
    have hend := run_add_of_stepMany_ok hsteps 0
    rw [Nat.add_zero] at hend
    rw [hend]
    exact run_of_terminated (decide_eq_true (exit_ok_eq_size hb)) 0

/-- As long as the program has not been evaluated, a run gives no answer. -/
theorem evaluates_or_run_eq_none (fuel : Nat) (s : State ω ι) (steps : Nat) :
    (∃ n r t, n ≤ fuel ∧ Evaluates 0 b s n r t) ∨ run fuel ⟨p, 0, steps, s⟩ = none := by
  refine (evaluates_or_isBefore fuel (Program.hasBlock_zero hb) s steps).imp_right ?_
  rintro ⟨m, hm, hip⟩
  have hprogram := stepMany_program fuel (⟨p, 0, steps, s⟩ : Machine ω ι)
  rw [hm] at hprogram
  have hsize := exit_ok_eq_size hb
  rw [Block.exit] at hsize
  have hrun := run_add_of_stepMany_ok hm 0
  rw [Nat.add_zero] at hrun
  rw [hrun]
  refine run_zero (decide_eq_false fun hend ↦ ?_)
  rw [hend, hprogram] at hip
  exact absurd hip (by rw [hsize]; exact Nat.lt_irrefl _)

/-- A machine that has stopped after `n` steps has evaluated the block of its program. -/
theorem evaluates_of_stepMany {n : Nat} {r : Except RuntimeError Unit} {t : State ω ι}
    {steps : Nat}
    (h : stepMany n ⟨p, 0, steps, s⟩ = (r, ⟨p, b.exit 0 r, steps + n, t⟩)) :
    Evaluates 0 b s n r t := by
  have hblock := Program.hasBlock_zero hb
  rcases evaluates_or_isBefore n hblock s steps with ⟨a, q, u, ha, heval⟩ | ⟨m, hm, hip⟩
  · have hsteps := stepMany_of_evaluates heval hblock steps
    obtain ⟨d, rfl⟩ := Nat.exists_eq_add_of_le ha
    cases d with
    | zero =>
      rw [Nat.add_zero] at h ⊢
      rw [hsteps] at h
      obtain ⟨rfl, hm⟩ := Prod.mk.inj h
      obtain ⟨-, -, -, rfl⟩ := Machine.mk.inj hm
      exact heval
    | succ d =>
      -- after it has stopped a machine counts no more steps
      have hstop : q = .ok () → terminated ⟨p, b.exit 0 q, steps + a, u⟩ = true := by
        rintro rfl
        exact decide_eq_true (exit_ok_eq_size hb)
      obtain ⟨e, he⟩ := stepMany_succ_add_of_stopped hsteps hstop d
      rw [h] at he
      obtain ⟨-, -, hcount, -⟩ := Machine.mk.inj (Prod.mk.inj he).2
      omega
  · rw [h] at hm
    obtain ⟨rfl, rfl⟩ := Prod.mk.inj hm
    exact absurd hip (Nat.lt_irrefl _)

end Whole

/-- **Adequacy.** A program with balanced brackets is the text of exactly one block, and a machine
that starts at its first symbol, in any state, does what evaluating this block does. It comes to the
end in `n` steps exactly if the evaluation ends in `n` steps, and in the same state; it stops with
the error of a device exactly if the evaluation does, which is so only under the policy to halt and
at a `.` or a `,`; and it runs forever exactly if the block cannot be evaluated. -/
theorem evaluates_iff_runs {p : Program} (hp : p.Balanced) :
    ∃ b : Block, (∀ c : Block, c.text = p.toList ↔ c = b) ∧
      ∀ (s : State ω ι) (steps : Nat),
        (∀ n t, stepMany n ⟨p, 0, steps, s⟩ = (.ok (), ⟨p, p.size, steps + n, t⟩) ↔
          Evaluates 0 b s n (.ok ()) t) ∧
        (∀ n e t, stepMany n ⟨p, 0, steps, s⟩ = (.error e, ⟨p, e.ip + 1, steps + n, t⟩) ↔
          Evaluates 0 b s n (.error e) t) ∧
        (∀ n e t, Evaluates 0 b s n (.error e) t →
          s.policy = .halt ∧ ∃ op f, p.commandAt e.ip = some op ∧ (op = .output ∨ op = .input) ∧
            e = .device e.ip op.toChar f) ∧
        (∀ r m, (∃ fuel, run fuel ⟨p, 0, steps, s⟩ = some (r, m)) ↔
          ∃ n t, Evaluates 0 b s n r t ∧ m = ⟨p, b.exit 0 r, steps + n, t⟩) ∧
        ((∀ fuel, run fuel ⟨p, 0, steps, s⟩ = none) ↔ ¬ ∃ n r t, Evaluates 0 b s n r t) := by
  obtain ⟨b, hb⟩ := Block.exists_text_eq hp
  have hblock := Program.hasBlock_zero hb
  refine ⟨b, fun c ↦ ?_, fun s steps ↦ ⟨fun n t ↦ ?_, fun n e t ↦ ?_, fun n e t h ↦ ?_,
    fun r m ↦ ?_, ?_⟩⟩
  · constructor
    · intro hc
      exact Block.text_injective (hc.trans hb.symm)
    · rintro rfl
      exact hb
  · rw [← exit_ok_eq_size hb]
    exact ⟨evaluates_of_stepMany hb, fun h ↦ stepMany_of_evaluates h hblock steps⟩
  · exact ⟨evaluates_of_stepMany hb, fun h ↦ stepMany_of_evaluates h hblock steps⟩
  · exact h.device_of_error rfl hblock
  · constructor
    · rintro ⟨fuel, hrun⟩
      rcases evaluates_or_run_eq_none hb fuel s steps with ⟨n, q, t, -, heval⟩ | hnone
      · obtain ⟨rfl, rfl⟩ := Prod.mk.inj (run_unique hrun (run_of_evaluates hb heval steps))
        exact ⟨n, t, heval, rfl⟩
      · rw [hrun] at hnone
        cases hnone
    · rintro ⟨n, t, heval, rfl⟩
      exact ⟨n, run_of_evaluates hb heval steps⟩
  · constructor
    · rintro hforever ⟨n, r, t, heval⟩
      have hrun := run_of_evaluates hb heval steps
      rw [hforever n] at hrun
      cases hrun
    · intro hnever fuel
      rcases evaluates_or_run_eq_none hb fuel s steps with ⟨n, r, t, -, heval⟩ | hnone
      · exact absurd ⟨n, r, t, heval⟩ hnever
      · exact hnone

/-- On `+[[-.]]` a machine without output comes to the end in seven steps, and one whose output
refuses every byte halts at the `.` in the inner loop; so both evaluations exist. -/
theorem evaluates_iff_runs_nested :
    let p := Program.ofString "+[[-.]]"
    let tape := (Tape.blank.set 0 1).set 0 0
    let silent : State Refusal Queue := {}
    let halting : State Refusal Queue :=
      { output := some ⟨FaultKind.brokenPipe.fault⟩, policy := .halt }
    p.Balanced ∧ ∃ b : Block, b.text = p.toList ∧
      Evaluates 0 b silent 7 (.ok ()) { silent with tape } ∧
        Evaluates 0 b halting 5 (.error (.device 4 '.' FaultKind.brokenPipe.fault))
          { halting with tape, failures := 1 } := by
  have hp : (Program.ofString "+[[-.]]").Balanced := by decide
  obtain ⟨b, hb, hadequate⟩ := @evaluates_iff_runs Refusal Queue _ _ _ hp
  refine ⟨hp, b, (hb b).2 rfl, ?_, ?_⟩
  · exact ((hadequate _ 0).1 7 _).1 (by rfl)
  · exact ((hadequate _ 0).2.1 5 _ _).1 (by rfl)

end Machine

end Brainfuck
