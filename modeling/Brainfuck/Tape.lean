import Std.Data.ExtTreeMap

/-!
# The tape

A tape is a row of byte cells, one at every integer address. Every cell holds `0` until something
is stored there, and arithmetic on a cell wraps around modulo `256`.

## What a tape remembers

Beside the value of each cell a tape knows which cells have been *touched*, that is, stored into at
least once. A touched cell that has come back to `0` stays touched, so two tapes with the same
values can still differ. The touched cells are kept in a finite map, and the value of any other cell
is read off as the default.

## The order of the touched cells

The touched cells are listed by ascending address. A map that keeps them in no order would have to
be enumerated first, in whatever order this may be, and sorted then. Here the map is sorted by
address, and its list needs no sorting. It is the same list: there is only one way to sort an
enumeration of the touched cells (`Tape.eq_touched_of_sorted`).
-/

namespace Brainfuck

/-- A tape of byte cells, unbounded on both sides, that remembers which cells were stored into. -/
structure Tape where
  /-- The touched cells with their values. -/
  cells : Std.ExtTreeMap Int UInt8 := {}

namespace Tape

/-- The tape on which nothing has been stored. -/
def blank : Tape := {}

instance : Inhabited Tape := ⟨blank⟩

/-- The value of the cell at address `a`. -/
def get (t : Tape) (a : Int) : UInt8 := t.cells.getD a 0

/-- Store `b` in the cell at address `a`. -/
def set (t : Tape) (a : Int) (b : UInt8) : Tape := ⟨t.cells.insert a b⟩

/-- Add one to the cell at address `a`; the new value comes with the new tape. -/
def increment (t : Tape) (a : Int) : UInt8 × Tape :=
  let b := t.get a + 1
  (b, t.set a b)

/-- Subtract one from the cell at address `a`; the new value comes with the new tape. -/
def decrement (t : Tape) (a : Int) : UInt8 × Tape :=
  let b := t.get a - 1
  (b, t.set a b)

/-- The touched cells with their values, by ascending address. -/
def touched (t : Tape) : List (Int × UInt8) := t.cells.toList

/-- How many cells have been touched. -/
def size (t : Tape) : Nat := t.cells.size

/-- Whether no cell has been touched. -/
def isEmpty (t : Tape) : Bool := t.cells.isEmpty

/-- The cell at address `a` has been stored into. -/
def Touched (t : Tape) (a : Int) : Prop := a ∈ t.cells

instance (t : Tape) (a : Int) : Decidable (t.Touched a) :=
  inferInstanceAs (Decidable (a ∈ t.cells))

/-! ## Reading back -/

@[simp] theorem get_blank (a : Int) : blank.get a = 0 := by
  simp [blank, get]

theorem get_set (t : Tape) (a c : Int) (b : UInt8) :
    (t.set a b).get c = if a = c then b else t.get c := by
  simp [get, set, Std.ExtTreeMap.getD_insert]

@[simp] theorem get_set_self (t : Tape) (a : Int) (b : UInt8) : (t.set a b).get a = b := by
  simp [get_set]

theorem get_set_of_ne (t : Tape) {a c : Int} (h : a ≠ c) (b : UInt8) :
    (t.set a b).get c = t.get c := by
  simp [get_set, h]

@[simp] theorem increment_fst (t : Tape) (a : Int) : (t.increment a).1 = t.get a + 1 := rfl

@[simp] theorem increment_snd (t : Tape) (a : Int) :
    (t.increment a).2 = t.set a (t.get a + 1) := rfl

@[simp] theorem decrement_fst (t : Tape) (a : Int) : (t.decrement a).1 = t.get a - 1 := rfl

@[simp] theorem decrement_snd (t : Tape) (a : Int) :
    (t.decrement a).2 = t.set a (t.get a - 1) := rfl

/-! ## The touched cells -/

@[simp] theorem not_touched_blank (a : Int) : ¬ blank.Touched a := by
  simp [blank, Touched]

theorem touched_set_iff (t : Tape) (a c : Int) (b : UInt8) :
    (t.set a b).Touched c ↔ a = c ∨ t.Touched c := by
  simp [Touched, set, Std.ExtTreeMap.mem_insert]

theorem size_set_le (t : Tape) (a : Int) (b : UInt8) : (t.set a b).size ≤ t.size + 1 :=
  Std.ExtTreeMap.size_insert_le

/-- A cell that was never stored into reads as `0`. -/
theorem get_of_not_touched {t : Tape} {a : Int} (h : ¬ t.Touched a) : t.get a = 0 :=
  Std.ExtTreeMap.getD_eq_fallback h

theorem length_touched (t : Tape) : t.touched.length = t.size :=
  Std.ExtTreeMap.length_toList

/-- The touched cells are listed with the values that the tape reads there. -/
theorem mem_touched_iff (t : Tape) (a : Int) (b : UInt8) :
    (a, b) ∈ t.touched ↔ t.Touched a ∧ t.get a = b := by
  rw [touched, Std.ExtTreeMap.mem_toList_iff_getElem?_eq_some]
  constructor
  · intro h
    exact ⟨Std.ExtTreeMap.mem_iff_isSome_getElem?.2 (by simp [h]),
      by simp [get, Std.ExtTreeMap.getD_eq_getD_getElem?, h]⟩
  · rintro ⟨h, rfl⟩
    exact Std.ExtTreeMap.getElem?_eq_some_getD h

/-- The addresses are listed in strictly ascending order. -/
theorem touched_ascending (t : Tape) : t.touched.Pairwise (fun x y ↦ x.1 < y.1) :=
  Std.ExtTreeMap.ordered_keys_toList.imp Int.compare_eq_lt.1

/-- Any enumeration of the touched cells that is sorted by address is the list of them. -/
theorem eq_touched_of_sorted {t : Tape} {cells : List (Int × UInt8)} (hnodup : cells.Nodup)
    (hmem : ∀ a b, (a, b) ∈ cells ↔ t.Touched a ∧ t.get a = b)
    (hsorted : cells.Pairwise fun x y ↦ x.1 ≤ y.1) : cells = t.touched := by
  have htouched : t.touched.Nodup :=
    t.touched_ascending.imp fun h heq ↦ Int.ne_of_lt h (congrArg Prod.fst heq)
  have hperm : cells.Perm t.touched :=
    (List.perm_ext_iff_of_nodup hnodup htouched).2 fun x ↦
      (hmem x.1 x.2).trans (mem_touched_iff t x.1 x.2).symm
  refine hperm.eq_of_pairwise ?_ hsorted (t.touched_ascending.imp Int.le_of_lt)
  -- two cells at one address show the same value
  intro x y hx hy hxy hyx
  obtain ⟨-, hx⟩ := (hmem x.1 x.2).1 hx
  obtain ⟨-, hy⟩ := (mem_touched_iff t y.1 y.2).1 hy
  have haddress : x.1 = y.1 := Int.le_antisymm hxy hyx
  exact Prod.ext haddress (by rw [← hx, ← hy, haddress])

/-- Two tapes that read alike and have touched the same cells are equal. -/
@[ext] theorem ext {t u : Tape} (hget : ∀ a, t.get a = u.get a)
    (htouched : ∀ a, t.Touched a ↔ u.Touched a) : t = u := by
  obtain ⟨m⟩ := t
  obtain ⟨n⟩ := u
  congr 1
  refine Std.ExtTreeMap.ext_getElem? fun a ↦ ?_
  by_cases h : a ∈ m
  · have hn : a ∈ n := (htouched a).1 h
    have hm : m[a]? = some (m.getD a 0) := Std.ExtTreeMap.getElem?_eq_some_getD h
    have hn : n[a]? = some (n.getD a 0) := Std.ExtTreeMap.getElem?_eq_some_getD hn
    rw [hm, hn]
    exact congrArg some (hget a)
  · have hn : a ∉ n := fun hn ↦ h ((htouched a).2 hn)
    rw [Std.ExtTreeMap.getElem?_eq_none h, Std.ExtTreeMap.getElem?_eq_none hn]

end Tape

end Brainfuck
