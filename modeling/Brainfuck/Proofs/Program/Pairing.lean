import Brainfuck.Program.Pairing
import Brainfuck.Proofs.Program.Height

/-!
# The pass that pairs brackets

A pass over a program pairs exactly the starts and ends of its loops, in the sense of `IsLoop`. The
brackets of the rest of the program need not match.

## The invariant

Behind the first `k` symbols the stack holds the brackets that are still open. From top to bottom
they stand lower and lower, each of them one below the one above it and the topmost one below the
height at `k`. This is `Standing`, which is said by recursion on the stack: what is below the top
was there when the top was put on. If the stack is empty the height has never been lower than it is
at `k`, and so a `]` at `k` cannot end a loop.
-/

namespace Brainfuck.Program

variable (p : Program)

/-- The indexes on a stack, the latest first, are the starts of the loops that are open at
index `k`. -/
def Standing (k : Nat) : List Nat → Prop
  | [] => ∀ i, i ≤ k → p.height k ≤ p.height i
  | o :: stack =>
    o < k ∧ p.height k = p.height o + 1 ∧ (∀ i, o < i → i ≤ k → p.height o < p.height i) ∧
      Standing o stack

variable {p} {k : Nat}

theorem standing_push {stack : List Nat} (h : p.Standing k stack)
    (hk : p.commandAt k = some .loopStart) : p.Standing (k + 1) (k :: stack) := by
  have hheight := height_succ_of_start hk
  refine ⟨Nat.lt_succ_self k, hheight, fun i hki hik ↦ ?_, h⟩
  obtain rfl : i = k + 1 := by omega
  omega

/-- The same loops are open at a later index of the same height, if there was nothing lower on the
way to it. -/
theorem standing_of_level {l : Nat} {stack : List Nat} (h : p.Standing k stack) (hkl : k ≤ l)
    (hlevel : p.height l = p.height k) (hstay : ∀ i, k ≤ i → i ≤ l → p.height k ≤ p.height i) :
    p.Standing l stack := by
  cases stack with
  | nil =>
    intro i hil
    rw [hlevel]
    rcases Nat.le_total i k with hik | hki
    · exact h i hik
    · exact hstay i hki hil
  | cons o stack =>
    obtain ⟨hok, htop, habove, hrest⟩ := h
    refine ⟨by omega, by omega, fun i hoi hil ↦ ?_, hrest⟩
    rcases Nat.le_total i k with hik | hki
    · exact habove i hoi hik
    · have := hstay i hki hil
      omega

/-- Passing over a symbol that is no bracket changes nothing. -/
theorem standing_succ {stack : List Nat} (h : p.Standing k stack)
    (hheight : p.height (k + 1) = p.height k) : p.Standing (k + 1) stack := by
  refine standing_of_level h (Nat.le_succ k) hheight fun i hki hik ↦ ?_
  rcases Nat.eq_or_lt_of_le hki with rfl | hlt
  · exact Int.le_refl _
  · obtain rfl : i = k + 1 := by omega
    omega

/-- A `]` ends the loop whose start is on top. -/
theorem isLoop_of_standing {o : Nat} {stack : List Nat} (h : p.Standing k (o :: stack))
    (hk : p.commandAt k = some .loopEnd) : p.IsLoop o k := by
  obtain ⟨hok, htop, habove, -⟩ := h
  have hheight := height_succ_of_end hk
  exact ⟨hok, by omega, habove⟩

theorem standing_pop {o : Nat} {stack : List Nat} (h : p.Standing k (o :: stack))
    (hk : p.commandAt k = some .loopEnd) : p.Standing (k + 1) stack := by
  have hloop := isLoop_of_standing h hk
  obtain ⟨hok, -, -, hrest⟩ := h
  refine standing_of_level hrest (by omega) hloop.level fun i hoi hik ↦ ?_
  rcases Nat.eq_or_lt_of_le hoi with rfl | hlt
  · exact Int.le_refl _
  · rcases Nat.eq_or_lt_of_le hik with rfl | hik
    · exact Int.le_of_eq hloop.level.symm
    · exact Int.le_of_lt (hloop.above i hlt (by omega))

/-- If nothing is open, a `]` ends no loop. -/
theorem not_isLoop_of_standing_nil (h : p.Standing k []) (i : Nat) : ¬ p.IsLoop i k := by
  intro hloop
  have hle := h i (Nat.le_of_lt hloop.lt)
  have hlt := hloop.above k hloop.lt (Nat.le_refl k)
  omega

theorem standing_nil_succ (h : p.Standing k []) (hk : p.commandAt k = some .loopEnd) :
    p.Standing (k + 1) [] := by
  have hheight := height_succ_of_end hk
  intro i hik
  rcases Nat.eq_or_lt_of_le hik with rfl | hlt
  · exact Int.le_refl _
  · have := h i (by omega)
    omega

/-- From an open bracket up to index `k` the height stays above it. -/
theorem height_lt_of_mem_standing {stack : List Nat} (h : p.Standing k stack) {i : Nat}
    (hi : i ∈ stack) : i < k ∧ ∀ l, i < l → l ≤ k → p.height i < p.height l := by
  induction stack generalizing k with
  | nil => exact absurd hi List.not_mem_nil
  | cons o stack ih =>
    obtain ⟨hok, -, habove, hrest⟩ := h
    rcases List.mem_cons.1 hi with rfl | hi
    · exact ⟨hok, habove⟩
    · -- `i` is below the top `o`, and everything behind `o` stands above `o`
      obtain ⟨hio, hbelow⟩ := ih hrest hi
      have ho := hbelow o hio (Nat.le_refl o)
      refine ⟨by omega, fun l hil hlk ↦ ?_⟩
      rcases Nat.lt_or_ge o l with hol | hlo
      · have := habove l hol hlk
        omega
      · exact hbelow l hil hlo

/-- A loop that is open at index `k` has not ended in front of `k`. -/
theorem not_isLoop_of_mem_standing {stack : List Nat} (h : p.Standing k stack) {i j : Nat}
    (hi : i ∈ stack) (hj : j < k) : ¬ p.IsLoop i j := by
  intro hloop
  have hlt := (height_lt_of_mem_standing h hi).2 (j + 1) (by have := hloop.lt; omega) hj
  have hlevel := hloop.level
  omega

/-! ## The pass -/

variable (p) in
/-- What a pass has found behind the first `k` symbols of a program. -/
structure Records (k : Nat) (q : Pairing) : Prop where
  /-- The pairs are the loops that have ended. -/
  pairs : ∀ i j, (i, j) ∈ q.pairs ↔ j < k ∧ p.IsLoop i j
  /-- The stack holds the loops that are open. -/
  stack : p.Standing k q.stack
  /-- Every `[` is on the stack, unless it has been paired. -/
  starts : ∀ i, i < k → p.commandAt i = some .loopStart → i ∈ q.stack ∨ ∃ j, (i, j) ∈ q.pairs

theorem records_zero : p.Records 0 {} := by
  refine ⟨fun i j ↦ ?_, fun i hi ↦ ?_, fun i hi ↦ absurd hi (Nat.not_lt_zero i)⟩
  · constructor
    · intro h
      exact absurd h List.not_mem_nil
    · rintro ⟨hj, -⟩
      exact absurd hj (Nat.not_lt_zero j)
  · obtain rfl : i = 0 := Nat.le_zero.1 hi
    exact Int.le_refl _

/-- A loop ends in front of `k + 1` if it ends in front of `k`, or at `k`. -/
theorem isLoop_lt_succ_iff (i j : Nat) :
    j < k + 1 ∧ p.IsLoop i j ↔ j < k ∧ p.IsLoop i j ∨ j = k ∧ p.IsLoop i k := by
  constructor
  · rintro ⟨hj, hloop⟩
    rcases Nat.lt_succ_iff_lt_or_eq.1 hj with hlt | rfl
    · exact Or.inl ⟨hlt, hloop⟩
    · exact Or.inr ⟨rfl, hloop⟩
  · rintro (⟨hj, hloop⟩ | ⟨rfl, hloop⟩)
    · exact ⟨Nat.lt_succ_of_lt hj, hloop⟩
    · exact ⟨Nat.lt_succ_self _, hloop⟩

/-- No loop ends at a symbol that is not a `]`. -/
theorem isLoop_lt_succ_iff_of_ne (hk : p.commandAt k ≠ some .loopEnd) (i j : Nat) :
    j < k + 1 ∧ p.IsLoop i j ↔ j < k ∧ p.IsLoop i j := by
  rw [isLoop_lt_succ_iff, or_iff_left]
  rintro ⟨-, hloop⟩
  exact hk hloop.stop

/-- Every `[` in front of `k + 1` is accounted for if those in front of `k` are, and `k` is. -/
theorem starts_succ {q : Pairing}
    (hpast : ∀ i, i < k → p.commandAt i = some .loopStart → i ∈ q.stack ∨ ∃ j, (i, j) ∈ q.pairs)
    (hk : p.commandAt k = some .loopStart → k ∈ q.stack) :
    ∀ i, i < k + 1 → p.commandAt i = some .loopStart → i ∈ q.stack ∨ ∃ j, (i, j) ∈ q.pairs := by
  intro i hi hstart
  rcases Nat.lt_succ_iff_lt_or_eq.1 hi with hlt | rfl
  · exact hpast i hlt hstart
  · exact Or.inl (hk hstart)

theorem records_start {q : Pairing} (h : p.Records k q) (hk : p.commandAt k = some .loopStart) :
    p.Records (k + 1) { q with stack := k :: q.stack } := by
  have hend : p.commandAt k ≠ some .loopEnd := by
    rw [hk]
    decide
  refine ⟨fun i j ↦ ?_, standing_push h.stack hk, starts_succ (fun i hi hstart ↦ ?_) fun _ ↦ ?_⟩
  · rw [isLoop_lt_succ_iff_of_ne hend]
    exact h.pairs i j
  · rcases h.starts i hi hstart with hstack | hpair
    · exact Or.inl (List.mem_cons_of_mem k hstack)
    · exact Or.inr hpair
  · exact List.mem_cons_self

/-- A `]` that ends a loop moves its start from the stack to the pairs. -/
theorem records_end {pairs : List (Nat × Nat)} {o : Nat} {stack : List Nat}
    (h : p.Records k ⟨pairs, o :: stack⟩) (hk : p.commandAt k = some .loopEnd) :
    p.Records (k + 1) ⟨(o, k) :: pairs, stack⟩ := by
  have hloop := isLoop_of_standing h.stack hk
  have hstart : p.commandAt k ≠ some .loopStart := by
    rw [hk]
    decide
  refine ⟨fun i j ↦ ?_, standing_pop h.stack hk,
    starts_succ (fun i hi hstart ↦ ?_) fun hk ↦ absurd hk hstart⟩
  · -- the new pair is the only loop that ends at `k`, since an end has one start
    rw [isLoop_lt_succ_iff, List.mem_cons, h.pairs i j, Prod.mk.injEq, or_comm]
    refine or_congr_right ?_
    constructor
    · rintro ⟨rfl, rfl⟩
      exact ⟨rfl, hloop⟩
    · rintro ⟨rfl, hi⟩
      exact ⟨hi.start_unique hloop, rfl⟩
  · rcases h.starts i hi hstart with hstack | ⟨j, hpair⟩
    · rcases List.mem_cons.1 hstack with rfl | hstack
      · exact Or.inr ⟨k, List.mem_cons_self⟩
      · exact Or.inl hstack
    · exact Or.inr ⟨j, List.mem_cons_of_mem _ hpair⟩

/-- A `]` that finds the stack empty is passed over. -/
theorem records_surplus {pairs : List (Nat × Nat)} (h : p.Records k ⟨pairs, []⟩)
    (hk : p.commandAt k = some .loopEnd) : p.Records (k + 1) ⟨pairs, []⟩ := by
  have hstart : p.commandAt k ≠ some .loopStart := by
    rw [hk]
    decide
  refine ⟨fun i j ↦ ?_, standing_nil_succ h.stack hk,
    starts_succ h.starts fun hk ↦ absurd hk hstart⟩
  rw [isLoop_lt_succ_iff, or_iff_left]
  · exact h.pairs i j
  · rintro ⟨-, hloop⟩
    exact not_isLoop_of_standing_nil h.stack i hloop

theorem records_of_ne {q : Pairing} (h : p.Records k q) (hstart : p.commandAt k ≠ some .loopStart)
    (hend : p.commandAt k ≠ some .loopEnd) : p.Records (k + 1) q := by
  refine ⟨fun i j ↦ ?_, standing_succ h.stack (height_succ_of_ne hstart hend),
    starts_succ h.starts fun hk ↦ absurd hk hstart⟩
  rw [isLoop_lt_succ_iff_of_ne hend]
  exact h.pairs i j

theorem records_visit {q : Pairing} {c : Char} (h : p.Records k q) (hc : p[k]? = some c) :
    p.Records (k + 1) (q.visit k c) := by
  have hcommand := commandAt_of_getElem? hc
  unfold Pairing.visit
  split
  · next hstart => exact records_start h (hcommand.trans hstart)
  · next hend =>
    obtain ⟨pairs, stack⟩ := q
    cases stack with
    | nil => exact records_surplus h (hcommand.trans hend)
    | cons o stack => exact records_end h (hcommand.trans hend)
  · next hstart hend =>
    rw [← hcommand] at hstart hend
    exact records_of_ne h hstart hend

/-- The run of the pass: every symbol it passes over keeps the invariant. -/
theorem records_visitAll {q : Pairing} {as bs : List Char} (hp : p.toList = as ++ bs)
    (h : p.Records as.length q) : p.Records p.size (q.visitAll as.length bs) := by
  induction bs generalizing as q with
  | nil =>
    rw [List.append_nil] at hp
    rw [← Array.length_toList, hp]
    exact h
  | cons c bs ih =>
    have hc := getElem?_of_toList_eq hp
    have hp' : p.toList = (as ++ [c]) ++ bs := by rw [hp, List.append_assoc, List.singleton_append]
    have hlength : (as ++ [c]).length = as.length + 1 := List.length_append
    rw [Pairing.visitAll_cons, ← hlength]
    exact ih hp' (by rw [hlength]; exact records_visit h hc)

theorem records_pairing (p : Program) : p.Records p.size p.pairing := by
  have hp : p.toList = [] ++ p.toList := rfl
  exact records_visitAll hp records_zero

/-! ## What a pass finds -/

/-- The pairs of a pass are the loops of the program. -/
theorem paired_iff_isLoop {i j : Nat} : p.Paired i j ↔ p.IsLoop i j := by
  rw [Paired, (records_pairing p).pairs]
  exact and_iff_right_of_imp IsLoop.lt_size

/-- What is left on the stack are the `[` that start no loop. -/
theorem mem_stack_iff {i : Nat} :
    i ∈ p.pairing.stack ↔ p.commandAt i = some .loopStart ∧ ∀ j, ¬ p.IsLoop i j := by
  have hpairing := records_pairing p
  constructor
  · intro hi
    obtain ⟨hlt, habove⟩ := height_lt_of_mem_standing hpairing.stack hi
    refine ⟨start_of_height_lt (habove (i + 1) (Nat.lt_succ_self i) hlt), fun j hloop ↦ ?_⟩
    exact not_isLoop_of_mem_standing hpairing.stack hi hloop.lt_size hloop
  · rintro ⟨hstart, hnone⟩
    rcases hpairing.starts i (lt_size_of_commandAt hstart) hstart with hstack | ⟨j, hpair⟩
    · exact hstack
    · exact absurd ((hpairing.pairs i j).1 hpair).2 (hnone j)

end Brainfuck.Program
