import Brainfuck.Proofs.Program.Append
import Brainfuck.Proofs.Program.Collapse

/-!
# Symbols put into a program

A word without brackets can be put into a program anywhere. The symbols in front of it stay where
they are, those behind it move by the length of the word, and no loop changes: taking the word out
again takes out no bracket.

The two programs are `a ++ b` and `a ++ w ++ b`. An index of the first becomes an index of the
second by `widen`, and an index of the second becomes one of the first by `narrow`, which sends the
whole word to the place where it was put in. At this place the first program has one index and the
second has two that may be meant, in front of the word and behind it. A symbol of `b` lies behind
the word, but control that comes to `b` comes to the word first.
-/

namespace Brainfuck.Program

/-! ## Indexes -/

/-- Where the symbol at index `i` comes to lie when `k` symbols are put in at index `n`. -/
def widen (n k i : Nat) : Nat := if i < n then i else i + k

/-- Where the symbol at index `i` comes to lie when the `k` symbols from index `n` on are taken
out. -/
def narrow (n k i : Nat) : Nat := if i ≤ n then i else max n (i - k)

section

variable {n k i j : Nat}

theorem widen_of_lt (h : i < n) : widen n k i = i := if_pos h

theorem widen_of_le (h : n ≤ i) : widen n k i = i + k := if_neg (Nat.not_lt.2 h)

/-- No symbol comes to lie among those that are put in. -/
theorem widen_outside (n k i : Nat) : widen n k i < n ∨ n + k ≤ widen n k i := by
  rw [widen]
  split <;> omega

@[simp] theorem narrow_widen (n k i : Nat) : narrow n k (widen n k i) = i := by
  rw [narrow, widen]
  split <;> split <;> omega

theorem narrow_of_le (h : i ≤ n) : narrow n k i = i := if_pos h

theorem narrow_add (n k i : Nat) : narrow n k (n + k + i) = n + i := by
  rw [narrow]
  split <;> omega

theorem narrow_of_mem (h : n ≤ i) (h' : i ≤ n + k) : narrow n k i = n := by
  rw [narrow]
  split <;> omega

/-- The symbols that are not taken out are kept in their order. -/
theorem narrow_succ_iff : narrow n k (i + 1) = narrow n k i + 1 ↔ i < n ∨ n + k ≤ i := by
  rw [narrow, narrow]
  split <;> split <;> omega

theorem narrow_succ (n k i : Nat) :
    narrow n k (i + 1) = narrow n k i ∨ narrow n k (i + 1) = narrow n k i + 1 := by
  rw [narrow, narrow]
  split <;> split <;> omega

/-- The index behind a symbol that is kept is the place of the word, or that of a symbol that is
kept. -/
theorem succ_eq_or_widen_eq (h : i < n ∨ n + k ≤ i) :
    (i + 1 = n ∧ narrow n k (i + 1) = n) ∨
      (narrow n k (i + 1) ≠ n ∧ widen n k (narrow n k (i + 1)) = i + 1) := by
  rw [widen, narrow]
  split <;> split <;> omega

end

/-! ## Programs -/

variable {a w b : Program} {i : Nat}

/-- No symbol of the program is a bracket. -/
def HasNoBrackets (w : Program) : Prop :=
  ∀ i, w.commandAt i ≠ some .loopStart ∧ w.commandAt i ≠ some .loopEnd

theorem HasNoBrackets.height (hw : w.HasNoBrackets) (k : Nat) : w.height k = 0 := by
  induction k with
  | zero => rfl
  | succ k ih => rw [height_succ_of_ne (hw k).1 (hw k).2, ih]

theorem size_insert (a w b : Program) : (a ++ w ++ b).size = a.size + w.size + b.size := by
  rw [Array.size_append, Array.size_append]

/-- The symbols behind the word that is put in. -/
theorem commandAt_insert_right (a w b : Program) (i : Nat) :
    (a ++ w ++ b).commandAt (a.size + w.size + i) = b.commandAt i := by
  rw [← Array.size_append, commandAt_append_right]

theorem height_insert (hw : w.HasNoBrackets) (a b : Program) (k : Nat) :
    (a ++ b).height (narrow a.size w.size k) = (a ++ w ++ b).height k := by
  have hsize : (a ++ w).size = a.size + w.size := Array.size_append
  have hin : ∀ j, (a ++ w).height (a.size + j) = a.height a.size := by
    intro j
    rw [height_append_right, hw.height, Int.add_zero]
  rcases Nat.le_total k a.size with hk | hk
  · rw [narrow_of_le hk, height_append_left hk, height_append_left (by omega),
      height_append_left hk]
  · rcases Nat.le_total k (a.size + w.size) with hk' | hk'
    · obtain ⟨j, rfl⟩ := Nat.exists_eq_add_of_le hk
      rw [narrow_of_mem hk hk', height_append_left (Nat.le_refl _), height_append_left (by omega),
        hin]
    · obtain ⟨j, rfl⟩ := Nat.exists_eq_add_of_le hk'
      rw [narrow_add, height_append_right, ← hsize, height_append_right, hsize, hin]

/-- Taking a word without brackets out again takes out no bracket. -/
theorem collapses_insert (hw : w.HasNoBrackets) (a b : Program) :
    (a ++ w ++ b).Collapses (a ++ b) (narrow a.size w.size) where
  zero := narrow_of_le (Nat.zero_le _)
  succ := narrow_succ a.size w.size
  size := by rw [size_insert, narrow_add, Array.size_append]
  command k hkept := by
    rcases narrow_succ_iff.1 hkept with hk | hk
    · rw [narrow_of_le (Nat.le_of_lt hk), commandAt_append_left hk, Array.append_assoc,
        commandAt_append_left hk]
    · obtain ⟨j, rfl⟩ := Nat.exists_eq_add_of_le hk
      rw [narrow_add, commandAt_append_right, commandAt_insert_right]
  height := height_insert hw a b

end Brainfuck.Program
