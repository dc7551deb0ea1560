import Brainfuck.Proofs.Program.Height

/-!
# Programs one behind the other

The heights of two programs that are put together are the heights of the first, and from there on
the heights of the second above the last height of the first. So a loop of either program is a loop
of both together. There may be other loops, which start in the first program and end in the second.

## The seam

If every loop that the first program opens ends in it, no loop goes across the seam. The first
program may close more loops than it opens. This makes its last height negative and does no harm,
because a loop is a matter of differences between heights.
-/

namespace Brainfuck.Program

variable {p q : Program} {i j k : Nat}

theorem commandAt_append_left (h : i < p.size) : (p ++ q).commandAt i = p.commandAt i := by
  rw [commandAt, commandAt, Array.getElem?_append_left h]

theorem commandAt_append_right (p q : Program) (i : Nat) :
    (p ++ q).commandAt (p.size + i) = q.commandAt i := by
  rw [commandAt, commandAt, Array.getElem?_append_right (Nat.le_add_right _ _),
    Nat.add_sub_cancel_left]

theorem height_append_left (h : k ≤ p.size) : (p ++ q).height k = p.height k := by
  rw [← Array.length_toList] at h
  rw [height, height, Array.toList_append, List.take_append_of_le_length h]

theorem height_append_right (p q : Program) (k : Nat) :
    (p ++ q).height (p.size + k) = p.height p.size + q.height k := by
  have htake : (p ++ q).toList.take (p.size + k) = p.toList ++ q.toList.take k := by
    rw [Array.toList_append, ← Array.length_toList, List.take_length_add_append]
  have hsize : p.toList.take p.size = p.toList := by
    rw [← Array.length_toList, List.take_length]
  rw [height, height, height, htake, hsize, opened_append, closed_append]
  omega

/-! ## Loops -/

/-- Where the heights of two programs differ by a constant the loops are the same. -/
theorem isLoop_iff_of_height {d : Nat} {c : Int}
    (h : ∀ k, i ≤ k → k ≤ j + 1 → q.height (d + k) = p.height k + c) :
    q.IsLoop (d + i) (d + j) ↔ p.IsLoop i j := by
  constructor
  · intro hloop
    have hlt : i < j := by
      have := hloop.lt
      omega
    have hi := h i (Nat.le_refl i) (by omega)
    have hj := h (j + 1) (by omega) (Nat.le_refl _)
    have hlevel := hloop.level
    rw [Nat.add_assoc] at hlevel
    refine ⟨hlt, by omega, ?_⟩
    intro k hik hkj
    have hk := h k (Nat.le_of_lt hik) (by omega)
    have := hloop.above (d + k) (by omega) (by omega)
    omega
  · intro hloop
    have hlt := hloop.lt
    have hi := h i (Nat.le_refl i) (by omega)
    have hj := h (j + 1) (by omega) (Nat.le_refl _)
    have hlevel := hloop.level
    refine ⟨by omega, ?_, ?_⟩
    · rw [Nat.add_assoc]
      omega
    · intro k hik hkj
      obtain ⟨l, rfl⟩ := Nat.exists_eq_add_of_le (show d ≤ k by omega)
      have hl := h l (by omega) (by omega)
      have := hloop.above l (by omega) (by omega)
      omega

theorem isLoop_append_left_iff (hj : j < p.size) : (p ++ q).IsLoop i j ↔ p.IsLoop i j := by
  have h : ∀ k, i ≤ k → k ≤ j + 1 → (p ++ q).height (0 + k) = p.height k + 0 := by
    intro k _ hk
    rw [Nat.zero_add, Int.add_zero, height_append_left (by omega)]
  have hiff := isLoop_iff_of_height h
  rw [Nat.zero_add, Nat.zero_add] at hiff
  exact hiff

theorem isLoop_append_right_iff :
    (p ++ q).IsLoop (p.size + i) (p.size + j) ↔ q.IsLoop i j := by
  apply isLoop_iff_of_height
  intro k _ _
  rw [height_append_right, Int.add_comm]

theorem LoopsEnd.exists_isLoop (h : p.LoopsEnd) (hi : p.commandAt i = some .loopStart) :
    ∃ j, p.IsLoop i j := by
  obtain ⟨j, hj⟩ := Option.isSome_iff_exists.1 (h i hi)
  exact ⟨j, (closing?_eq_some_iff hi).1 hj⟩

/-- No loop goes across the seam. -/
theorem LoopsEnd.lt_size_of_isLoop (h : p.LoopsEnd) (hi : i < p.size)
    (hloop : (p ++ q).IsLoop i j) : j < p.size := by
  have hstart : p.commandAt i = some .loopStart := by
    rw [← commandAt_append_left hi]
    exact hloop.start
  -- the loop that starts at `i` in the first program ends there, and a loop has one end
  obtain ⟨l, hl⟩ := h.exists_isLoop hstart
  rw [hloop.end_unique ((isLoop_append_left_iff hl.lt_size).2 hl)]
  exact hl.lt_size

end Brainfuck.Program
