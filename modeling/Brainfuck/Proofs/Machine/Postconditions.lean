import Brainfuck.Proofs.Machine.Adequacy
import Brainfuck.Proofs.Machine.Straight

/-!
# What blocks achieve

To know what a program comes to, it is enough to know of each of its blocks which states it ends in.
A block *achieves* a property from a state if its evaluation there ends, without an error, in a
state that has the property. There is one rule for each way in which a block begins, and the
property that a block has to achieve is what the rest of the program needs.

## Loops that count down

A loop whose body subtracts one from the cell under the head, whatever else it does, comes to an
end: the cell is a byte, and it is one smaller after each turn. So all that has to be found for such
a loop is an invariant. This is the rule for most loops that compute something.
-/

namespace Brainfuck

theorem plain_of_worksOnTape {c : Char} (h : worksOnTape (Command.ofChar? c) = true) : Plain c :=
  ne_bracket_of_worksOnTape h

namespace Block

/-! ## Straight words in blocks -/

/-- A straight word in front of a block. -/
def straight : (w : List Char) → (∀ c ∈ w, worksOnTape (Command.ofChar? c) = true) → Block → Block
  | [], _, b => b
  | c :: w, hw, b =>
    symbol c (plain_of_worksOnTape (hw c List.mem_cons_self))
      (straight w (fun d hd ↦ hw d (List.mem_cons_of_mem c hd)) b)

theorem text_straight (w : List Char) (hw : ∀ c ∈ w, worksOnTape (Command.ofChar? c) = true)
    (b : Block) : (straight w hw b).text = w ++ b.text := by
  induction w with
  | nil => rfl
  | cons c w ih => rw [straight, text, ih, List.cons_append]

/-! ## One rule for each kind of block -/

variable {ω ι : Type} [OutputDevice ω] [InputDevice ι] {b body rest : Block} {i : Nat}
  {s : State ω ι} {post post' : State ω ι → Prop}

/-- The block, whose first symbol has index `i`, takes the state `s` to one with the property
`post`. -/
def Achieves (i : Nat) (b : Block) (s : State ω ι) (post : State ω ι → Prop) : Prop :=
  ∃ n t, Evaluates i b s n (.ok ()) t ∧ post t

theorem Achieves.imp (h : Achieves i b s post) (himp : ∀ t, post t → post' t) :
    Achieves i b s post' := by
  obtain ⟨n, t, heval, hpost⟩ := h
  exact ⟨n, t, heval, himp t hpost⟩

theorem achieves_nil (h : post s) : Achieves i nil s post := ⟨0, s, .nil, h⟩

/-- A straight word leads to what it makes of the tape. -/
theorem achieves_straight {w : List Char} {hw : ∀ c ∈ w, worksOnTape (Command.ofChar? c) = true}
    (h : Achieves (i + w.length) b (s.place (Tape.workAll w (s.tape, s.head))) post) :
    Achieves i (straight w hw b) s post := by
  induction w generalizing i s with
  | nil => exact h
  | cons c w ih =>
    rw [List.length_cons, Nat.add_comm w.length, ← Nat.add_assoc] at h
    obtain ⟨n, t, heval, hpost⟩ :=
      ih (i := i + 1) (s := s.place (Tape.work (s.tape, s.head) (Command.ofChar? c))) h
    have hwork := State.exec_of_worksOnTape (hw c List.mem_cons_self) s i
    exact ⟨n + 1, t, .symbol hwork heval, hpost⟩

/-- A loop that is not entered, or is left. -/
theorem achieves_loop_of_zero (hzero : s.cell = 0)
    (h : Achieves (i + body.size + 2) rest s post) : Achieves i (loop body rest) s post := by
  obtain ⟨n, t, heval, hpost⟩ := h
  exact ⟨n + 1, t, .leave hzero heval, hpost⟩

/-- One turn of a loop. -/
theorem achieves_loop_of_nonzero (hnonzero : s.cell ≠ 0)
    (h : Achieves (i + 1) body s fun u ↦ Achieves i (loop body rest) u post) :
    Achieves i (loop body rest) s post := by
  obtain ⟨a, u, honce, b, t, hmore, hpost⟩ := h
  exact ⟨a + 1 + b, t, .turn hnonzero honce hmore, hpost⟩

/-- **Loops that count down.** If each turn keeps an invariant and subtracts one from the cell under
the head, the loop comes to its end, with the invariant and a `0` under the head. -/
theorem achieves_countdown {I : State ω ι → Prop}
    (hbody : ∀ u, I u → u.cell ≠ 0 →
      Achieves (i + 1) body u fun v ↦ I v ∧ v.cell = u.cell - 1)
    (hrest : ∀ u, I u → u.cell = 0 → Achieves (i + body.size + 2) rest u post) (h : I s) :
    Achieves i (loop body rest) s post := by
  -- the induction is on the value of the cell, which is not `0` when one is subtracted from it
  generalize hk : s.cell.toNat = k
  induction k using Nat.strongRecOn generalizing s with
  | ind k ih =>
    by_cases hzero : s.cell = 0
    · exact achieves_loop_of_zero hzero (hrest s h hzero)
    · refine achieves_loop_of_nonzero hzero ((hbody s h hzero).imp ?_)
      rintro v ⟨hv, hcell⟩
      have hlt : s.cell - 1 < s.cell := by grind
      rw [← hcell, UInt8.lt_iff_toNat_lt, hk] at hlt
      exact ih _ hlt hv rfl

/-! ## Runs -/

/-- What the block of a program achieves is what a run of the program comes to. -/
theorem Achieves.exists_run {p : Program} (hb : b.text = p.toList) (h : Achieves 0 b s post)
    (steps : Nat) :
    ∃ n t, Machine.run n ⟨p, 0, steps, s⟩ = some (.ok (), ⟨p, p.size, steps + n, t⟩) ∧ post t := by
  obtain ⟨n, t, heval, hpost⟩ := h
  have hrun := Machine.run_of_evaluates hb heval steps
  rw [Machine.exit_ok_eq_size hb] at hrun
  exact ⟨n, t, hrun, hpost⟩

end Block

end Brainfuck
