import Brainfuck.Proofs.Program.Height
import Mathlib.Order.Monotone.Basic

/-!
# Symbols taken out of a program

When some symbols are taken out of a program the others move together. The index at which a symbol
comes to lie is given by a map that never decreases: it goes up by one at a symbol that is kept, and
stands still at a symbol that is taken out. Every index of the shorter program is that of one symbol
that was kept.

If the symbols that are taken out have no part in heights, the height at the image of an index is
the height at the index. Then no bracket is taken out, and the loops of the two programs are the
same.
-/

namespace Brainfuck.Program

variable {p q : Program} {g : Nat → Nat} {i j : Nat}

/-- The program `q` is left of `p` when symbols that are not brackets are taken out. The symbol at
index `k` comes to lie at `g k`, and it is kept if `g` goes up there. -/
structure Collapses (p q : Program) (g : Nat → Nat) : Prop where
  /-- The first symbol that is kept is the first symbol. -/
  zero : g 0 = 0
  /-- A symbol is taken out, or the next one comes to lie behind it. -/
  succ : ∀ k, g (k + 1) = g k ∨ g (k + 1) = g k + 1
  /-- The end of the program comes to lie at the end. -/
  size : g p.size = q.size
  /-- A symbol that is kept stands for the same command. -/
  command : ∀ k, g (k + 1) = g k + 1 → q.commandAt (g k) = p.commandAt k
  /-- The heights are kept. -/
  height : ∀ k, q.height (g k) = p.height k

namespace Collapses

theorem mono (h : p.Collapses q g) (hij : i ≤ j) : g i ≤ g j := by
  refine monotone_nat_of_le_succ (fun k ↦ ?_) hij
  rcases h.succ k with heq | heq
  · exact Nat.le_of_eq heq.symm
  · rw [heq]
    exact Nat.le_succ _

/-- A symbol that is kept lies in front of all that come behind it. -/
theorem lt (h : p.Collapses q g) (hi : g (i + 1) = g i + 1) (hij : i < j) : g i < g j :=
  Nat.lt_of_lt_of_le (Nat.lt_of_lt_of_eq (Nat.lt_succ_self _) hi.symm) (h.mono hij)

/-- Every index of the shorter program is that of a symbol that was kept. -/
theorem exists_eq (h : p.Collapses q g) {l n : Nat} (hl : l < g n) :
    ∃ k, k < n ∧ g (k + 1) = g k + 1 ∧ g k = l := by
  induction n with
  | zero =>
    rw [h.zero] at hl
    exact absurd hl (Nat.not_lt_zero l)
  | succ n ih =>
    by_cases hlast : l < g n
    · obtain ⟨k, hk, hkept, heq⟩ := ih hlast
      exact ⟨k, Nat.lt_succ_of_lt hk, hkept, heq⟩
    · -- the last symbol makes the difference
      rcases h.succ n with heq | heq
      · rw [heq] at hl
        exact absurd hl hlast
      · exact ⟨n, Nat.lt_succ_self n, heq, by omega⟩

/-- A symbol at which the height changes is kept. -/
theorem kept_of_height_ne (h : p.Collapses q g) (hne : p.height (i + 1) ≠ p.height i) :
    g (i + 1) = g i + 1 := by
  rcases h.succ i with heq | heq
  · rw [← h.height, ← h.height, heq] at hne
    exact absurd rfl hne
  · exact heq

theorem kept_of_start (h : p.Collapses q g) (hi : p.commandAt i = some .loopStart) :
    g (i + 1) = g i + 1 := by
  apply h.kept_of_height_ne
  rw [height_succ_of_start hi]
  omega

theorem kept_of_end (h : p.Collapses q g) (hi : p.commandAt i = some .loopEnd) :
    g (i + 1) = g i + 1 := by
  apply h.kept_of_height_ne
  rw [height_succ_of_end hi]
  omega

theorem isLoop_iff (h : p.Collapses q g) (hi : g (i + 1) = g i + 1) (hj : g (j + 1) = g j + 1) :
    q.IsLoop (g i) (g j) ↔ p.IsLoop i j := by
  have hlevel : q.height (g j + 1) = p.height (j + 1) := by rw [← hj, h.height]
  constructor
  · intro hloop
    have hij : i < j := by
      by_contra hji
      have := h.mono (Nat.not_lt.1 hji)
      have := hloop.lt
      omega
    refine ⟨hij, ?_, ?_⟩
    · rw [← hlevel, hloop.level, h.height]
    · intro k hik hkj
      have habove := hloop.above (g k) (h.lt hi hik) (h.mono hkj)
      rwa [h.height, h.height] at habove
  · intro hloop
    refine ⟨h.lt hi hloop.lt, ?_, ?_⟩
    · rw [hlevel, hloop.level, h.height]
    · intro l hil hlj
      -- the height at `l` is the height at a symbol of the loop
      obtain ⟨k, hk, -, rfl⟩ := h.exists_eq (show l < g (j + 1) by omega)
      rw [h.height, h.height]
      apply hloop.above k _ (by omega)
      by_contra hki
      have := h.mono (Nat.not_lt.1 hki)
      omega

end Collapses

end Brainfuck.Program
