import Brainfuck.Proofs.Machine.Relocation
import Brainfuck.Proofs.Program.Append

/-!
# One program after another

A machine on two programs that are put together executes the first and then the second. This is not
a matter of course, for a bracket of the one could find its partner in the other. It cannot if every
loop that the first program opens ends in it. Then the symbols of the first program can be relocated
to where they are, and those of the second to where they are behind the first, and the machine goes
side by side with a machine on either program alone.
-/

namespace Brainfuck

namespace Program

variable {p : Program} {i : Nat}

theorem LoopsEnd.relocates_left (h : p.LoopsEnd) (q : Program) (hi : i < p.size) :
    p.Relocates (p ++ q) id i := by
  refine ⟨?_, commandAt_append_left hi, fun _ ↦ rfl, ?_, ?_, ?_, ?_⟩
  · have hsize : i < (p ++ q).size := by
      rw [Array.size_append]
      omega
    exact iff_of_true hsize hi
  · intro j hloop
    exact ⟨(isLoop_append_left_iff hloop.lt_size).2 hloop, rfl⟩
  · intro j hloop
    have hj := h.lt_size_of_isLoop hi hloop
    exact ⟨j, (isLoop_append_left_iff hj).1 hloop⟩
  · intro k hloop
    exact ⟨(isLoop_append_left_iff hi).2 hloop, rfl⟩
  · intro k hloop
    exact ⟨k, (isLoop_append_left_iff hi).1 hloop⟩

theorem LoopsEnd.relocates_right (h : p.LoopsEnd) (q : Program) (i : Nat) :
    q.Relocates (p ++ q) (p.size + ·) i := by
  refine ⟨?_, commandAt_append_right p q i, fun _ ↦ rfl, ?_, ?_, ?_, ?_⟩
  · rw [Array.size_append]
    omega
  · intro j hloop
    exact ⟨isLoop_append_right_iff.2 hloop, rfl⟩
  · intro j hloop
    obtain ⟨l, rfl⟩ := Nat.exists_eq_add_of_le (show p.size ≤ j by have := hloop.lt; omega)
    exact ⟨l, isLoop_append_right_iff.1 hloop⟩
  · intro k hloop
    exact ⟨isLoop_append_right_iff.2 hloop, rfl⟩
  · intro k hloop
    -- a loop from the first program would go across the seam
    have hk : p.size ≤ k := by
      by_contra hk
      have := h.lt_size_of_isLoop (Nat.not_le.1 hk) hloop
      omega
    obtain ⟨l, rfl⟩ := Nat.exists_eq_add_of_le hk
    exact ⟨l, isLoop_append_right_iff.1 hloop⟩

end Program

namespace Machine

variable {ω ι : Type} {p : Program} {m : Machine ω ι}

/-- At the seam the machine on both programs is a machine on the second one, relocated: what has
been reported so far stands in front of what is reported from there on. -/
theorem eq_relocate_of_seam {a : Machine ω ι} (q : Program) (hend : a.ip = p.size) :
    { a with program := p ++ q } =
      (⟨q, 0, a.steps, { a.state with reports := #[] }⟩ : Machine ω ι).relocate (p ++ q)
        (p.size + ·) 0 a.state.reports := by
  simp only [relocate, State.relocate, Array.map_empty, Array.append_empty, Nat.sub_zero,
    Nat.add_zero, hend]

variable [OutputDevice ω] [InputDevice ι]

/-- As long as control is in the first program the second makes no difference. -/
theorem stepAll_append_left {n : Nat} (hp : m.program.LoopsEnd) (q : Program)
    (hin : ∀ k, k < n → (stepAll k m).2.ip < m.program.size) :
    stepAll n { m with program := m.program ++ q } =
      ((stepAll n m).1, { (stepAll n m).2 with program := m.program ++ q }) := by
  have hstay : ∀ a : Machine ω ι,
      a.relocate (m.program ++ q) id 0 #[] = { a with program := m.program ++ q } := by
    intro a
    rw [relocate, State.relocate_id]
    rfl
  have hsteps := stepAll_relocate (fun k hk ↦ hp.relocates_left q (hin k hk))
    (Nat.zero_le m.steps) #[]
  rw [hstay, Prod.map, hstay, mapError_relocate_id, List.map_id] at hsteps
  exact hsteps

/-- Once control is in the second program it stays there, and the first makes no difference. -/
theorem stepAll_append_right (hp : p.LoopsEnd) (m : Machine ω ι) (xs : Array RuntimeError)
    (n : Nat) :
    stepAll n (m.relocate (p ++ m.program) (p.size + ·) 0 xs) =
      (stepAll n m).map (List.map (Except.mapError (RuntimeError.relocate (p.size + ·))))
        (relocate (p ++ m.program) (p.size + ·) 0 xs) := by
  apply stepAll_relocate _ (Nat.zero_le m.steps) xs
  intro k _
  exact hp.relocates_right m.program _

theorem stepAll_append_seam {n : Nat} {a : Machine ω ι} {rs : List (Except RuntimeError Unit)}
    (hp : m.program.LoopsEnd) (q : Program)
    (hin : ∀ k, k < n → (stepAll k m).2.ip < m.program.size) (hfirst : stepAll n m = (rs, a))
    (hend : a.ip = m.program.size) (k : Nat) :
    let b := stepAll k (⟨q, 0, a.steps, { a.state with reports := #[] }⟩ : Machine ω ι)
    stepAll (n + k) { m with program := m.program ++ q } =
      (rs ++ b.1.map (Except.mapError (RuntimeError.relocate (m.program.size + ·))),
        b.2.relocate (m.program ++ q) (m.program.size + ·) 0 a.state.reports) := by
  rw [stepAll_add, stepAll_append_left hp q hin, hfirst, eq_relocate_of_seam q hend]
  have hsecond := stepAll_append_right hp
    (⟨q, 0, a.steps, { a.state with reports := #[] }⟩ : Machine ω ι) a.state.reports k
  rw [hsecond]
  rfl

/-- **Programs are executed one after the other.** Let every loop that the program `p` opens end in
it, and let `q` be any program. As long as a machine on `p` has not come to the end, a machine on
`p ++ q` makes the same steps with the same results. When the one has come to its end, the other
goes on as a machine on `q` does that starts from the state which `p` has left, with every index
shifted by the size of `p`, and never comes back into `p`. -/
theorem append_runs_in_sequence (hp : p.LoopsEnd) (q : Program) (ip steps : Nat)
    (s : State ω ι) :
    let first : Machine ω ι := ⟨p, ip, steps, s⟩
    let both : Machine ω ι := ⟨p ++ q, ip, steps, s⟩
    (∀ n, (∀ k, k < n → (stepAll k first).2.ip < p.size) →
      stepAll n both = ((stepAll n first).1, { (stepAll n first).2 with program := p ++ q })) ∧
    ∀ n, (∀ k, k < n → (stepAll k first).2.ip < p.size) → (stepAll n first).2.ip = p.size →
      let reached := (stepAll n first).2
      let second : Machine ω ι := ⟨q, 0, reached.steps, { reached.state with reports := #[] }⟩
      ∀ k,
        stepAll (n + k) both =
            ((stepAll n first).1 ++
              (stepAll k second).1.map (Except.mapError (RuntimeError.relocate (p.size + ·))),
              (stepAll k second).2.relocate (p ++ q) (p.size + ·) 0 reached.state.reports) ∧
          p.size ≤ (stepAll (n + k) both).2.ip := by
  intro first both
  refine ⟨fun n hin ↦ stepAll_append_left (m := first) hp q hin, ?_⟩
  intro n hin hend reached second k
  have hsteps := stepAll_append_seam (m := first) hp q hin rfl hend k
  refine ⟨hsteps, ?_⟩
  have hip : (stepAll (n + k) both).2.ip = p.size + (stepAll k second).2.ip :=
    congrArg (fun x ↦ x.2.ip) hsteps
  rw [hip]
  exact Nat.le_add_right _ _

/-- In `]+[-]` the first bracket has no partner. Behind it the `]` of `+]` has none either, although
there is a `[` in front of it: the machine on both programs fails there, at the index that is
shifted by five. -/
theorem append_runs_in_sequence_surplus :
    let p := Program.ofString "]+[-]"
    let q := Program.ofString "+]"
    let s : State Collector Queue := {}
    p.LoopsEnd ∧ (stepAll 5 ⟨p, 0, 0, s⟩).2.ip = p.size ∧
      (stepAll 5 ⟨p ++ q, 0, 0, s⟩).1 = List.replicate 5 (.ok ()) ∧
      (stepAll (5 + 2) ⟨p ++ q, 0, 0, s⟩).1 =
        List.replicate 5 (.ok ()) ++ [.ok (), .error (.unmatched 6 .closing)] ∧
      p.size ≤ (stepAll (5 + 2) ⟨p ++ q, 0, 0, s⟩).2.ip := by
  intro p q s
  have hp : p.LoopsEnd := by decide
  have hin : ∀ k, k < 5 → (stepAll k ⟨p, 0, 0, s⟩).2.ip < p.size := by decide +kernel
  have hend : (stepAll 5 ⟨p, 0, 0, s⟩).2.ip = p.size := by decide +kernel
  have hresults : (stepAll 5 ⟨p, 0, 0, s⟩).1 = List.replicate 5 (.ok ()) := by decide +kernel
  obtain ⟨hfirst, hrest⟩ := append_runs_in_sequence hp q 0 0 s
  obtain ⟨hboth, hstays⟩ := hrest 5 hin hend 2
  refine ⟨hp, hend, ?_, ?_, hstays⟩
  · rw [hfirst 5 hin]
    exact hresults
  · rw [hboth, hresults]
    decide +kernel

end Machine

end Brainfuck
