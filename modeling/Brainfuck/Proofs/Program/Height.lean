import Brainfuck.Program.Balance
import Mathlib.Tactic.Common

/-!
# Heights

The *height* at an index of a program is the number of loops opened in front of it, less the number
of loops closed in front of it. It moves by one at a bracket and stands still at every other symbol.
In a program whose brackets do not match it may become negative.

## Partners by height

A scan for a partner counts a depth, and what it counts is the height above the place where it
started. So both scans look for the same thing from its two ends: a stretch of the program over
which the height stays above the height at its two ends. That is what `IsLoop` says. It is a
condition on two indexes that favours neither of them, and for this reason the two scans are
inverse to each other, whatever the other brackets of the program are.
-/

namespace Brainfuck.Program

variable (p : Program)

/-- How many loops have been opened and not closed in front of index `k`. -/
def height (k : Nat) : Int := opened (p.toList.take k) - closed (p.toList.take k)

@[simp] theorem height_zero : p.height 0 = 0 := rfl

variable {p} {i j k : Nat}

theorem height_succ_of_getElem? {c : Char} (h : p[k]? = some c) :
    p.height (k + 1) = p.height k + (opened [c] - closed [c]) := by
  rw [← Array.getElem?_toList] at h
  rw [height, height, List.take_add_one, h, Option.toList_some, opened_append, closed_append]
  omega

theorem height_succ_of_start (h : p.commandAt k = some .loopStart) :
    p.height (k + 1) = p.height k + 1 := by
  rw [height_succ_of_getElem? (commandAt_eq_some_iff.1 h)]
  rfl

theorem height_succ_of_end (h : p.commandAt k = some .loopEnd) :
    p.height (k + 1) = p.height k - 1 := by
  rw [height_succ_of_getElem? (commandAt_eq_some_iff.1 h)]
  rfl

theorem height_succ_of_ne (hstart : p.commandAt k ≠ some .loopStart)
    (hend : p.commandAt k ≠ some .loopEnd) : p.height (k + 1) = p.height k := by
  rw [Ne, commandAt_eq_some_iff] at hstart hend
  cases h : p[k]? with
  | none =>
    have hk : p.toList.length ≤ k := by
      rw [Array.length_toList]
      exact Array.getElem?_eq_none_iff.1 h
    rw [height, height, List.take_of_length_le hk, List.take_of_length_le (by omega)]
  | some c =>
    rw [h] at hstart hend
    have hopened : opened [c] = 0 :=
      List.count_eq_zero.2 fun hc ↦ hstart (congrArg some (List.mem_singleton.1 hc).symm)
    have hclosed : closed [c] = 0 :=
      List.count_eq_zero.2 fun hc ↦ hend (congrArg some (List.mem_singleton.1 hc).symm)
    rw [height_succ_of_getElem? h, hopened, hclosed, Int.sub_self, Int.add_zero]

/-- Only a `[` raises the height. -/
theorem start_of_height_lt (h : p.height k < p.height (k + 1)) :
    p.commandAt k = some .loopStart := by
  by_contra hstart
  by_cases hend : p.commandAt k = some .loopEnd
  · have := height_succ_of_end hend
    omega
  · have := height_succ_of_ne hstart hend
    omega

/-- Only a `]` lowers the height. -/
theorem end_of_height_lt (h : p.height (k + 1) < p.height k) : p.commandAt k = some .loopEnd := by
  by_contra hend
  by_cases hstart : p.commandAt k = some .loopStart
  · have := height_succ_of_start hstart
    omega
  · have := height_succ_of_ne hstart hend
    omega

/-! ## Loops -/

variable (p) in
/-- The symbols from index `i` to index `j` are a loop, with its brackets: the height rises at `i`,
stays above the height at `i`, and comes back to it behind `j`. -/
structure IsLoop (i j : Nat) : Prop where
  /-- The loop ends behind its start. -/
  lt : i < j
  /-- The height behind the loop is the height in front of it. -/
  level : p.height (j + 1) = p.height i
  /-- Inside the loop the height is larger. -/
  above : ∀ k, i < k → k ≤ j → p.height i < p.height k

namespace IsLoop

theorem start (h : p.IsLoop i j) : p.commandAt i = some .loopStart :=
  start_of_height_lt (h.above (i + 1) (Nat.lt_succ_self i) h.lt)

theorem stop (h : p.IsLoop i j) : p.commandAt j = some .loopEnd := by
  have := h.above j h.lt (Nat.le_refl j)
  exact end_of_height_lt (by rw [h.level]; exact this)

theorem lt_size (h : p.IsLoop i j) : j < p.size := lt_size_of_commandAt h.stop

/-- A loop has one end. -/
theorem end_unique {j' : Nat} (h : p.IsLoop i j) (h' : p.IsLoop i j') : j = j' := by
  rcases Nat.lt_trichotomy j j' with hlt | heq | hgt
  · have habove := h'.above (j + 1) (by have := h.lt; omega) hlt
    rw [h.level] at habove
    exact absurd habove (Int.lt_irrefl _)
  · exact heq
  · have habove := h.above (j' + 1) (by have := h'.lt; omega) hgt
    rw [h'.level] at habove
    exact absurd habove (Int.lt_irrefl _)

/-- A loop has one start. -/
theorem start_unique {i' : Nat} (h : p.IsLoop i j) (h' : p.IsLoop i' j) : i = i' := by
  have hlevel : p.height i = p.height i' := by rw [← h.level, ← h'.level]
  rcases Nat.lt_trichotomy i i' with hlt | heq | hgt
  · have habove := h.above i' hlt (Nat.le_of_lt h'.lt)
    omega
  · exact heq
  · have habove := h'.above i hgt (Nat.le_of_lt h.lt)
    omega

end IsLoop

/-! ## The scans

The height above which a scan stays is fixed when it starts: it is the height at the scan's index
less its depth, and it is the same after every symbol that the scan passes over. -/

variable (p) in
/-- From index `s` on, the height is at least `level` up to index `j`, and falls below it there. -/
def FallsAt (level : Int) (s j : Nat) : Prop :=
  s ≤ j ∧ p.height (j + 1) = level - 1 ∧ ∀ k, s ≤ k → k ≤ j → level ≤ p.height k

variable (p) in
/-- From index `b` back, the height is at least `level` up to index `i`, and is below it there. -/
def RisesAt (level : Int) (b i : Nat) : Prop :=
  i < b ∧ p.height i = level - 1 ∧ ∀ k, i < k → k ≤ b → level ≤ p.height k

theorem fallsAt_succ_iff {level : Int} {s : Nat} (hs : level ≤ p.height s)
    (hnext : level ≤ p.height (s + 1)) : p.FallsAt level (s + 1) j ↔ p.FallsAt level s j := by
  constructor
  · rintro ⟨hle, hfall, hstay⟩
    refine ⟨by omega, hfall, fun k hsk hkj ↦ ?_⟩
    rcases Nat.eq_or_lt_of_le hsk with rfl | hlt
    · exact hs
    · exact hstay k hlt hkj
  · rintro ⟨hle, hfall, hstay⟩
    have hne : s ≠ j := by
      rintro rfl
      omega
    exact ⟨by omega, hfall, fun k hsk hkj ↦ hstay k (by omega) hkj⟩

theorem fallsAt_self_iff {level : Int} {s : Nat} (hs : level ≤ p.height s)
    (hnext : p.height (s + 1) = level - 1) : p.FallsAt level s j ↔ s = j := by
  constructor
  · rintro ⟨hle, hfall, hstay⟩
    by_contra hne
    have := hstay (s + 1) (by omega) (by omega)
    omega
  · rintro rfl
    refine ⟨Nat.le_refl _, hnext, fun k hsk hks ↦ ?_⟩
    obtain rfl : s = k := Nat.le_antisymm hsk hks
    exact hs

theorem risesAt_succ_iff {level : Int} {b : Nat} (hb : level ≤ p.height b)
    (hnext : level ≤ p.height (b + 1)) : p.RisesAt level (b + 1) i ↔ p.RisesAt level b i := by
  constructor
  · rintro ⟨hlt, hrise, hstay⟩
    have hne : i ≠ b := by
      rintro rfl
      omega
    exact ⟨by omega, hrise, fun k hik hkb ↦ hstay k hik (by omega)⟩
  · rintro ⟨hlt, hrise, hstay⟩
    refine ⟨by omega, hrise, fun k hik hkb ↦ ?_⟩
    rcases Nat.eq_or_lt_of_le hkb with rfl | hlt
    · exact hnext
    · exact hstay k hik (by omega)

theorem risesAt_self_iff {level : Int} {b : Nat} (hb : p.height b = level - 1)
    (hnext : level ≤ p.height (b + 1)) : p.RisesAt level (b + 1) i ↔ b = i := by
  constructor
  · rintro ⟨hlt, hrise, hstay⟩
    by_contra hne
    have := hstay b (by omega) (by omega)
    omega
  · rintro rfl
    refine ⟨Nat.lt_succ_self _, hb, fun k hbk hkb ↦ ?_⟩
    obtain rfl : k = b + 1 := by omega
    exact hnext

/-- What a forward scan finds. -/
theorem closingIn_eq_some_iff {left depth : Nat} {level : Int} (hleft : left ≤ p.size)
    (hlevel : p.height (p.size - left) = level + depth) :
    p.closingIn left depth = some j ↔ p.FallsAt level (p.size - left) j ∧ j < p.size := by
  induction left generalizing depth with
  | zero =>
    rw [closingIn]
    constructor
    · intro h
      cases h
    · rintro ⟨⟨hle, -⟩, hlt⟩
      omega
  | succ left ih =>
    -- the scan counts what is left of the program; the heights are said of the index `s` it is at
    have hnext : p.size - left = p.size - (left + 1) + 1 := by omega
    rw [closingIn]
    generalize hs : p.size - (left + 1) = s at hnext hlevel ⊢
    rw [hnext] at ih
    split
    · next hstart =>
      have hheight := height_succ_of_start hstart
      rw [ih (by omega) (by omega), fallsAt_succ_iff (by omega) (by omega)]
    · next hend =>
      have hheight := height_succ_of_end hend
      split
      · next hdepth =>
        rw [fallsAt_self_iff (by omega) (by omega), Option.some_inj]
        constructor
        · rintro rfl
          exact ⟨rfl, by omega⟩
        · exact And.left
      · next hdepth => rw [ih (by omega) (by omega), fallsAt_succ_iff (by omega) (by omega)]
    · next hstart hend =>
      have hheight := height_succ_of_ne (fun h ↦ hstart h) (fun h ↦ hend h)
      rw [ih (by omega) (by omega), fallsAt_succ_iff (by omega) (by omega)]

/-- What a backward scan finds. -/
theorem openingIn_eq_some_iff {bound depth : Nat} {level : Int}
    (hlevel : p.height bound = level + depth) :
    p.openingIn bound depth = some i ↔ p.RisesAt level bound i := by
  induction bound generalizing depth with
  | zero =>
    rw [openingIn]
    constructor
    · intro h
      cases h
    · rintro ⟨hlt, -⟩
      omega
  | succ b ih =>
    rw [openingIn]
    split
    · next hend =>
      have hheight := height_succ_of_end hend
      rw [ih (by omega), risesAt_succ_iff (by omega) (by omega)]
    · next hstart =>
      have hheight := height_succ_of_start hstart
      split
      · next hdepth => rw [risesAt_self_iff (by omega) (by omega), Option.some_inj]
      · next hdepth => rw [ih (by omega), risesAt_succ_iff (by omega) (by omega)]
    · next hend hstart =>
      have hheight := height_succ_of_ne (fun h ↦ hstart h) (fun h ↦ hend h)
      rw [ih (by omega), risesAt_succ_iff (by omega) (by omega)]

/-! ## Partners -/

/-- The forward scan from a `[` finds the end of its loop. -/
theorem closing?_eq_some_iff (h : p.commandAt i = some .loopStart) :
    p.closing? i = some j ↔ p.IsLoop i j := by
  have hi := lt_size_of_commandAt h
  have hheight := height_succ_of_start h
  have hsize : p.size - (p.size - (i + 1)) = i + 1 := by omega
  have hlevel : p.height (p.size - (p.size - (i + 1))) = p.height i + 1 + (0 : Nat) := by
    rw [hsize]
    omega
  rw [closing?, closingIn_eq_some_iff (by omega) hlevel, hsize]
  constructor
  · rintro ⟨⟨hle, hfall, hstay⟩, -⟩
    exact ⟨hle, by omega, fun k hik hkj ↦ hstay k hik hkj⟩
  · intro hloop
    exact ⟨⟨hloop.lt, by have := hloop.level; omega, fun k hik hkj ↦ hloop.above k hik hkj⟩,
      hloop.lt_size⟩

/-- The backward scan from a `]` finds the start of its loop. -/
theorem opening?_eq_some_iff (h : p.commandAt j = some .loopEnd) :
    p.opening? j = some i ↔ p.IsLoop i j := by
  have hheight := height_succ_of_end h
  have hlevel : p.height j = p.height j + (0 : Nat) := by omega
  rw [opening?, openingIn_eq_some_iff hlevel]
  constructor
  · rintro ⟨hlt, hrise, hstay⟩
    refine ⟨hlt, by omega, fun k hik hkj ↦ ?_⟩
    have := hstay k hik hkj
    omega
  · intro hloop
    have hlevel := hloop.level
    refine ⟨hloop.lt, by omega, fun k hik hkj ↦ ?_⟩
    have := hloop.above k hik hkj
    omega

end Brainfuck.Program
