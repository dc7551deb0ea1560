import Brainfuck.Proofs.Program.Pairing
import Mathlib.Data.Nat.Find

/-!
# Nested loops

The height changes by one at most from a symbol to the next, so it cannot get from one value to
another without taking the values in between. Two things follow. A `[` starts a loop as soon as the
height comes back to where it was, however far away, and a `]` ends one as soon as the height was
lower somewhere in front of it. And of two loops that have a symbol in common one lies inside the
other.

## Balance

That the brackets of a program are balanced is a condition on the heights of the whole program: none
is negative and the last is `0`. That every bracket has a partner is a condition on one bracket at a
time. The two are the same. In the direction from partners to heights the first negative height
would stand behind a `]` without a partner, and if the last height were positive, a `[` would be
left on the stack of the pass that pairs the brackets.
-/

namespace Brainfuck.Program

variable {p : Program} {i j k l : Nat}

/-! ## Where loops start and end -/

/-- A `[` starts a loop if the height is not larger at some later index. -/
theorem exists_isLoop_of_start (hstart : p.commandAt i = some .loopStart) (hik : i < k)
    (hle : p.height k ≤ p.height i) : ∃ j, p.IsLoop i j := by
  have hex : ∃ k, i < k ∧ p.height k ≤ p.height i := ⟨k, hik, hle⟩
  have hup := height_succ_of_start hstart
  -- the loop ends in front of the first index at which the height has come back
  obtain ⟨hlt, hback⟩ := Nat.find_spec hex
  have hfirst : ∀ l, i < l → l < Nat.find hex → p.height i < p.height l := by
    intro l hil hl
    have hnot := Nat.find_min hex hl
    by_contra hlow
    exact hnot ⟨hil, Int.not_lt.1 hlow⟩
  obtain ⟨j, hj⟩ := Nat.exists_eq_succ_of_ne_zero (Nat.ne_of_gt (Nat.zero_lt_of_lt hlt))
  rw [hj, Nat.succ_eq_add_one] at hlt hback hfirst
  have hij : i < j := by
    by_contra hle
    obtain rfl : i = j := by omega
    omega
  have habove := hfirst j hij (Nat.lt_succ_self j)
  have hend : p.commandAt j = some .loopEnd := end_of_height_lt (by omega)
  have hdown := height_succ_of_end hend
  refine ⟨j, hij, by omega, ?_⟩
  intro l hil hlj
  exact hfirst l hil (by omega)

/-- A `]` ends a loop if the height is smaller at some earlier index. -/
theorem exists_isLoop_of_end (hend : p.commandAt j = some .loopEnd) (hkj : k ≤ j)
    (hlt : p.height k < p.height j) : ∃ i, p.IsLoop i j := by
  have hdown := height_succ_of_end hend
  -- the loop starts at the last index at which the height is smaller
  let low : Nat → Prop := fun i ↦ p.height i < p.height j
  have hlow : low (Nat.findGreatest low j) := Nat.findGreatest_spec hkj hlt
  have hlast : ∀ l, Nat.findGreatest low j < l → l ≤ j → p.height j ≤ p.height l := by
    intro l hl hlj
    exact Int.not_lt.1 (Nat.findGreatest_is_greatest hl hlj)
  have hle := Nat.findGreatest_le (P := low) j
  generalize Nat.findGreatest low j = i at hlow hlast hle
  have hij : i < j := by
    refine Nat.lt_of_le_of_ne hle ?_
    rintro rfl
    exact Int.lt_irrefl _ hlow
  have hnext := hlast (i + 1) (Nat.lt_succ_self i) hij
  have hi : p.height i < p.height j := hlow
  have hstart : p.commandAt i = some .loopStart := start_of_height_lt (by omega)
  have hup := height_succ_of_start hstart
  refine ⟨i, hij, by omega, ?_⟩
  intro l hil hlj
  have := hlast l hil hlj
  omega

/-! ## Loops inside loops -/

namespace IsLoop

/-- A loop that starts inside another one ends inside it. -/
theorem end_lt (h : p.IsLoop i j) (h' : p.IsLoop k l) (hik : i < k) (hkj : k ≤ j) : l < j := by
  by_contra hlj
  have hk := h.above k hik hkj
  have hback := h.level
  rcases Nat.eq_or_lt_of_le (Nat.not_lt.1 hlj) with rfl | hjl
  · exact Nat.ne_of_lt hik (h.start_unique h')
  · -- behind the outer loop the height is too small for the inside of the other
    have := h'.above (j + 1) (by omega) hjl
    omega

/-- A loop that ends inside another one starts inside it. -/
theorem lt_start (h : p.IsLoop i j) (h' : p.IsLoop k l) (hil : i < l) (hlj : l < j) : i < k := by
  by_contra hki
  have hl := h.above (l + 1) (by omega) hlj
  have hback := h'.level
  rcases Nat.eq_or_lt_of_le (Nat.not_lt.1 hki) with rfl | hki
  · exact Nat.ne_of_lt hlj (h'.end_unique h)
  · have := h'.above i hki (Nat.le_of_lt hil)
    omega

end IsLoop

/-! ## Balanced programs -/

theorem balanced_iff_height : p.Balanced ↔ (∀ k, 0 ≤ p.height k) ∧ p.height p.size = 0 := by
  have hsize : p.height p.size = opened p.toList - closed p.toList := by
    rw [height, ← Array.length_toList, List.take_length]
  rw [Balanced, hsize]
  refine and_congr (forall_congr' fun k ↦ ?_) ?_
  · rw [height]
    omega
  · omega

/-- If every `]` has a partner no height is negative. -/
theorem height_nonneg (hend : ∀ j, p.commandAt j = some .loopEnd → ∃ i, p.IsLoop i j) (k : Nat) :
    0 ≤ p.height k := by
  induction k using Nat.strongRecOn with
  | ind k ih =>
    cases k with
    | zero => exact Int.le_refl _
    | succ k =>
      have hk := ih k (Nat.lt_succ_self k)
      by_contra hneg
      obtain ⟨i, hloop⟩ := hend k (end_of_height_lt (by omega))
      -- the loop that ends here goes back to the height in front of it
      have hi := ih i (Nat.lt_succ_of_lt hloop.lt)
      rw [← hloop.level] at hi
      exact hneg hi

/-- If every `[` has a partner the last height is the smallest. -/
theorem height_size_le (hstart : ∀ i, p.commandAt i = some .loopStart → ∃ j, p.IsLoop i j)
    (hk : k ≤ p.size) : p.height p.size ≤ p.height k := by
  have hempty : p.pairing.stack = [] := by
    rw [List.eq_nil_iff_forall_not_mem]
    intro i hi
    obtain ⟨hi, hnone⟩ := mem_stack_iff.1 hi
    obtain ⟨j, hloop⟩ := hstart i hi
    exact hnone j hloop
  have hstanding := (records_pairing p).stack
  rw [hempty] at hstanding
  exact hstanding k hk

/-- The brackets of a program are balanced if and only if every one of them belongs to a loop. -/
theorem balanced_iff_isLoop :
    p.Balanced ↔ (∀ i, p.commandAt i = some .loopStart → ∃ j, p.IsLoop i j) ∧
      ∀ j, p.commandAt j = some .loopEnd → ∃ i, p.IsLoop i j := by
  rw [balanced_iff_height]
  constructor
  · rintro ⟨hnonneg, hlast⟩
    constructor
    · intro i hi
      have := hnonneg i
      exact exists_isLoop_of_start hi (lt_size_of_commandAt hi) (by omega)
    · intro j hj
      have hdown := height_succ_of_end hj
      have := hnonneg (j + 1)
      refine exists_isLoop_of_end hj (Nat.zero_le j) ?_
      rw [height_zero]
      omega
  · rintro ⟨hstart, hend⟩
    have hnonneg := height_nonneg hend
    refine ⟨hnonneg, Int.le_antisymm ?_ (hnonneg p.size)⟩
    exact height_size_le hstart (Nat.zero_le p.size)

end Brainfuck.Program
