import Brainfuck.Tape
import Mathlib.Data.List.Induction

/-!
# Histories of a tape

A tape can be changed in three ways, and what it shows after any row of such operations can be said
without a tape: each cell holds what was last set there, or `0`, with one added for each increment
and one subtracted for each decrement since, modulo `256`, and the touched cells are those that some
operation was about.

## One cell at a time

An operation on one cell leaves the others alone. So a cell knows nothing of a history but the
operations with its own address, in their order, and histories that agree on these for every address
lead to the same tape, however they are interleaved. All that is said about a cell here is therefore
said by means of the operations at its address, and the inductions are on the last operation of a
history.
-/

namespace Brainfuck.Tape

/-! ## Operations -/

/-- A way to change a tape. -/
inductive Operation where
  /-- Store a byte. -/
  | set (a : Int) (b : UInt8)
  /-- Add one. -/
  | increment (a : Int)
  /-- Subtract one. -/
  | decrement (a : Int)
deriving DecidableEq, Repr

namespace Operation

/-- The address of the cell that is changed. -/
def address : Operation → Int
  | set a _ => a
  | increment a => a
  | decrement a => a

@[simp] theorem address_set (a : Int) (b : UInt8) : (set a b).address = a := rfl

@[simp] theorem address_increment (a : Int) : (increment a).address = a := rfl

@[simp] theorem address_decrement (a : Int) : (decrement a).address = a := rfl

/-- The byte that is stored, whatever the cell held before. -/
def stored? : Operation → Option UInt8
  | set _ b => some b
  | increment _ => none
  | decrement _ => none

/-- The tape after the operation. -/
def perform (t : Tape) : Operation → Tape
  | set a b => t.set a b
  | increment a => (t.increment a).2
  | decrement a => (t.decrement a).2

theorem touched_perform_iff (t : Tape) (o : Operation) (a : Int) :
    (o.perform t).Touched a ↔ o.address = a ∨ t.Touched a := by
  cases o with
  | set c b => exact touched_set_iff t c a b
  | increment c => exact touched_set_iff t c a _
  | decrement c => exact touched_set_iff t c a _

theorem get_perform_of_ne (t : Tape) {o : Operation} {a : Int} (h : o.address ≠ a) :
    (o.perform t).get a = t.get a := by
  cases o with
  | set c b => exact get_set_of_ne t h b
  | increment c => exact get_set_of_ne t h _
  | decrement c => exact get_set_of_ne t h _

end Operation

open Operation

/-- The tape after a history, which starts with a blank one. -/
def after (ops : List Operation) : Tape := ops.foldl Operation.perform blank

theorem after_append_singleton (ops : List Operation) (o : Operation) :
    after (ops ++ [o]) = o.perform (after ops) := by
  rw [after, List.foldl_append]
  rfl

/-! ## The operations on one cell -/

/-- The operations on the cell at `a`, in their order. -/
def operationsAt (a : Int) (ops : List Operation) : List Operation := ops.filter (·.address = a)

/-- The byte that was last set at `a`, or `0` if there is none. -/
def lastSet (a : Int) (ops : List Operation) : UInt8 :=
  ((operationsAt a ops).reverse.findSome? stored?).getD 0

/-- The operations at `a` since a byte was last set there, the latest first. -/
def sinceSet (a : Int) (ops : List Operation) : List Operation :=
  (operationsAt a ops).reverse.takeWhile (·.stored? = none)

section

variable {a : Int} {o : Operation} (ops : List Operation)

theorem operationsAt_append_of_ne (h : o.address ≠ a) :
    operationsAt a (ops ++ [o]) = operationsAt a ops := by
  simp [operationsAt, h]

theorem operationsAt_append_of_eq (h : o.address = a) :
    operationsAt a (ops ++ [o]) = operationsAt a ops ++ [o] := by
  simp [operationsAt, h]

theorem lastSet_append_of_stored {b : UInt8} (h : o.address = a) (ho : o.stored? = some b) :
    lastSet a (ops ++ [o]) = b ∧ sinceSet a (ops ++ [o]) = [] := by
  rw [lastSet, sinceSet, operationsAt_append_of_eq ops h, List.reverse_append]
  simp [ho]

theorem lastSet_append_of_none (h : o.address = a) (ho : o.stored? = none) :
    lastSet a (ops ++ [o]) = lastSet a ops ∧ sinceSet a (ops ++ [o]) = o :: sinceSet a ops := by
  rw [lastSet, sinceSet, operationsAt_append_of_eq ops h, List.reverse_append]
  simp [ho, lastSet, sinceSet]

end

/-! ## What the tape shows -/

theorem touched_after_iff (ops : List Operation) (a : Int) :
    (after ops).Touched a ↔ ∃ o ∈ ops, o.address = a := by
  induction ops using List.reverseRecOn with
  | nil => simp [after]
  | append_singleton ops o ih =>
    rw [after_append_singleton, touched_perform_iff, ih]
    simp [or_comm]

/-- A cell holds what was last set, plus the increments and minus the decrements since. -/
theorem get_after (ops : List Operation) (a : Int) :
    (after ops).get a = lastSet a ops + .ofNat ((sinceSet a ops).count (.increment a)) -
      .ofNat ((sinceSet a ops).count (.decrement a)) := by
  induction ops using List.reverseRecOn with
  | nil => simp [after, lastSet, sinceSet, operationsAt]
  | append_singleton ops o ih =>
    rw [after_append_singleton]
    by_cases h : o.address = a
    · cases o with
      | set c b =>
        obtain ⟨hlast, hsince⟩ := lastSet_append_of_stored ops h rfl
        obtain rfl : c = a := h
        rw [hlast, hsince, perform, get_set_self]
        simp
      | increment c =>
        obtain ⟨hlast, hsince⟩ := lastSet_append_of_none ops h rfl
        obtain rfl : c = a := h
        rw [hlast, hsince, perform, increment_snd, get_set_self, ih, List.count_cons_self,
          List.count_cons_of_ne (by simp), UInt8.ofNat_add]
        grind
      | decrement c =>
        obtain ⟨hlast, hsince⟩ := lastSet_append_of_none ops h rfl
        obtain rfl : c = a := h
        rw [hlast, hsince, perform, decrement_snd, get_set_self, ih, List.count_cons_self,
          List.count_cons_of_ne (by simp), UInt8.ofNat_add]
        grind
    · rw [get_perform_of_ne _ h, ih, lastSet, sinceSet, lastSet, sinceSet,
        operationsAt_append_of_ne ops h]

/-- Bytes are added and subtracted modulo `256`. -/
theorem toNat_add_sub (b : UInt8) (m n : Nat) :
    ((b + .ofNat m - .ofNat n).toNat : Int) = (b.toNat + m - n) % 256 := by
  rw [UInt8.toNat_sub, UInt8.toNat_add, UInt8.toNat_ofNat', UInt8.toNat_ofNat']
  omega

/-- To enumerate the touched cells in any order and to sort them by address gives the list of
them. -/
theorem mergeSort_eq_touched {t : Tape} {cells : List (Int × UInt8)} (hnodup : cells.Nodup)
    (hmem : ∀ a b, (a, b) ∈ cells ↔ t.Touched a ∧ t.get a = b) :
    cells.mergeSort (fun x y ↦ x.1 ≤ y.1) = t.touched := by
  have hperm := cells.mergeSort_perm fun x y ↦ x.1 ≤ y.1
  have hsorted : (cells.mergeSort fun x y ↦ x.1 ≤ y.1).Pairwise
      fun x y ↦ decide (x.1 ≤ y.1) = true :=
    List.pairwise_mergeSort (by intro x y z; simp; omega) (by intro x y; simp; omega) cells
  refine eq_touched_of_sorted (hperm.nodup_iff.2 hnodup) (fun a b ↦ ?_)
    (hsorted.imp of_decide_eq_true)
  rw [hperm.mem_iff, hmem]

/-- Histories that agree on the operations at every address lead to the same tape. -/
theorem after_eq_of_operationsAt {ops ops' : List Operation}
    (h : ∀ a, operationsAt a ops = operationsAt a ops') : after ops = after ops' := by
  have hmem : ∀ a (l : List Operation), (∃ o ∈ l, o.address = a) ↔ operationsAt a l ≠ [] := by
    intro a l
    simp [operationsAt, List.filter_eq_nil_iff]
  refine Tape.ext (fun a ↦ ?_) fun a ↦ ?_
  · rw [get_after, get_after, lastSet, sinceSet, lastSet, sinceSet, h a]
  · rw [touched_after_iff, touched_after_iff, hmem, hmem, h a]

theorem isEmpty_after_iff (ops : List Operation) : (after ops).isEmpty = true ↔ ops = [] := by
  rw [isEmpty, Std.ExtTreeMap.isEmpty_iff, Std.ExtTreeMap.eq_empty_iff_forall_not_mem]
  constructor
  · intro h
    refine List.eq_nil_iff_forall_not_mem.2 fun o ho ↦ ?_
    exact h o.address ((touched_after_iff ops o.address).2 ⟨o, ho, rfl⟩)
  · rintro rfl a
    exact not_touched_blank a

/-- **Histories.** After any row of operations on a blank tape a cell holds what was last set there,
or `0` if nothing was, plus the increments and minus the decrements at its address since, modulo
`256`; an increment or a decrement returns the value that is then read. The touched cells are listed
by ascending addresses. They are those that some operation was about, each with its value, also if
this has come back to `0`, and there is none exactly if there was no operation. To enumerate them in
any order and sort them by address gives the list. Histories that keep the operations at each
address in the same order, and so are permutations of each other, lead to the same list. -/
theorem tape_shows_its_history (ops : List Operation) :
    (∀ a, (((after ops).get a).toNat : Int) =
        ((lastSet a ops).toNat + (sinceSet a ops).count (.increment a) -
          (sinceSet a ops).count (.decrement a)) % 256) ∧
      (∀ a, ((after ops).increment a).1 = (after (ops ++ [.increment a])).get a ∧
        ((after ops).decrement a).1 = (after (ops ++ [.decrement a])).get a) ∧
      (after ops).touched.Pairwise (fun x y ↦ x.1 < y.1) ∧
      (∀ a b, (a, b) ∈ (after ops).touched ↔
        (∃ o ∈ ops, o.address = a) ∧ (after ops).get a = b) ∧
      (∀ cells : List (Int × UInt8), cells.Nodup →
        (∀ a b, (a, b) ∈ cells ↔ (∃ o ∈ ops, o.address = a) ∧ (after ops).get a = b) →
        cells.mergeSort (fun x y ↦ x.1 ≤ y.1) = (after ops).touched) ∧
      (after ops).size = (after ops).touched.length ∧
      ((after ops).isEmpty = true ↔ ops = []) ∧
      ∀ ops', (∀ a, operationsAt a ops = operationsAt a ops') →
        (after ops).touched = (after ops').touched := by
  refine ⟨fun a ↦ ?_, fun a ↦ ⟨?_, ?_⟩, touched_ascending _, fun a b ↦ ?_,
    fun cells hnodup hmem ↦ ?_, (length_touched _).symm, isEmpty_after_iff ops, fun ops' h ↦ ?_⟩
  · rw [get_after, toNat_add_sub]
  · rw [after_append_singleton, perform, increment_snd, get_set_self, increment_fst]
  · rw [after_append_singleton, perform, decrement_snd, get_set_self, decrement_fst]
  · rw [mem_touched_iff, touched_after_iff]
  · refine mergeSort_eq_touched hnodup fun a b ↦ ?_
    rw [hmem, touched_after_iff]
  · rw [after_eq_of_operationsAt h]

/-- It does not matter that the increment at `4` comes between two operations at `-3`, nor in which
order the two cells are enumerated. -/
theorem tape_shows_its_history_interleaved :
    let ops : List Operation := [.set (-3) 255, .increment 4, .increment (-3)]
    let ops' : List Operation := [.increment 4, .set (-3) 255, .increment (-3)]
    let cells : List (Int × UInt8) := [(4, 1), (-3, 0)]
    (∀ a, operationsAt a ops = operationsAt a ops') ∧ (after ops).touched = (after ops').touched ∧
      (after ops').touched = [(-3, 0), (4, 1)] ∧ cells.Nodup ∧
      (∀ a b, (a, b) ∈ cells ↔ (∃ o ∈ ops, o.address = a) ∧ (after ops).get a = b) ∧
      cells.mergeSort (fun x y ↦ x.1 ≤ y.1) = (after ops).touched := by
  intro ops ops' cells
  have hops : ∀ a, operationsAt a ops = operationsAt a ops' := by
    intro a
    by_cases ha : a = 4
    · subst ha
      rfl
    · have h4 : ¬ 4 = a := fun h ↦ ha h.symm
      simp [operationsAt, ops, ops', List.filter_cons, h4]
  have htouched : (after ops).touched = [(-3, 0), (4, 1)] := by decide +kernel
  obtain ⟨-, -, -, hlisted, hsorted, -, -, hsame⟩ := tape_shows_its_history ops
  have hcells : ∀ a b, (a, b) ∈ cells ↔ (∃ o ∈ ops, o.address = a) ∧ (after ops).get a = b := by
    intro a b
    have hswap : cells.Perm [(-3, 0), (4, 1)] := List.Perm.swap ..
    rw [← hlisted, htouched, hswap.mem_iff]
  have hnodup : cells.Nodup := by decide
  exact ⟨hops, hsame ops' hops, (hsame ops' hops).symm.trans htouched, hnodup, hcells,
    hsorted cells hnodup hcells⟩

end Brainfuck.Tape
