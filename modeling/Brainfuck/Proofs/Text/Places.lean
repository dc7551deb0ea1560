import Brainfuck.Text.Lines
import Mathlib.Tactic.Common

/-!
# Places in a text

A text is cut at places, which are counted in bytes, and its characters are found by their indices.
The place of a character is the number of bytes that the characters in front of it take, so it lies
between two characters, and places come in the order of indices. Two indices in this order therefore
name two places at which the text can be cut, and what is cut out are the characters from the one
index to the other. That is so for indices behind the end too: they all name the place at the end.
-/

namespace Brainfuck.Text

variable {n i j : Nat} {as bs cs : List Char}

/-! ## Bytes -/

@[simp] theorem byteLength_nil : byteLength [] = 0 := rfl

@[simp] theorem byteLength_cons (c : Char) (cs : List Char) :
    byteLength (c :: cs) = c.utf8Size + byteLength cs := rfl

@[simp] theorem byteLength_append (as bs : List Char) :
    byteLength (as ++ bs) = byteLength as + byteLength bs := by
  induction as with
  | nil => rw [List.nil_append, byteLength_nil, Nat.zero_add]
  | cons a as ih => rw [List.cons_append, byteLength_cons, byteLength_cons, ih, Nat.add_assoc]

/-- Every character takes a byte at least. -/
theorem length_le_byteLength (cs : List Char) : cs.length ≤ byteLength cs := by
  induction cs with
  | nil => exact Nat.le_refl 0
  | cons c cs ih =>
    have hc := c.utf8Size_pos
    rw [List.length_cons, byteLength_cons]
    omega

/-- The text fits into memory, where no size exceeds the largest signed word. -/
def Fits (cs : List Char) : Prop := 2 * byteLength cs < UInt64.size

instance : DecidablePred Fits := fun cs ↦
  inferInstanceAs (Decidable (2 * byteLength cs < UInt64.size))

/-- The place lies between two characters of the text, or at one of its ends. -/
def IsBoundary (cs : List Char) (n : Nat) : Prop :=
  ∃ front back, cs = front ++ back ∧ byteLength front = n

/-! ## Cuts at places -/

theorem dropBytes_append (as bs : List Char) :
    dropBytes (byteLength as) (as ++ bs) = some bs := by
  induction as with
  | nil => cases bs <;> rfl
  | cons c as ih =>
    have hc := c.utf8Size_pos
    rw [List.cons_append, dropBytes, byteLength_cons, if_neg (by omega), if_pos (by omega),
      Nat.add_sub_cancel_left, ih]

theorem takeBytes_append (as bs : List Char) :
    takeBytes (byteLength as) (as ++ bs) = some as := by
  induction as with
  | nil => cases bs <;> rfl
  | cons c as ih =>
    have hc := c.utf8Size_pos
    rw [List.cons_append, takeBytes, byteLength_cons, if_neg (by omega), if_pos (by omega),
      Nat.add_sub_cancel_left, ih, Option.map_some]

/-- A text in three parts is cut at the places between them. -/
theorem slice_append (as bs cs : List Char) :
    slice (byteLength as) (byteLength (as ++ bs)) (as ++ (bs ++ cs)) = some bs := by
  rw [slice, if_pos (by rw [byteLength_append]; omega), dropBytes_append, Option.bind_some,
    byteLength_append, Nat.add_sub_cancel_left, takeBytes_append]

/-! ## Places of characters -/

theorem placeFrom_eq (start : Nat) (cs : List Char) (i : Nat) :
    placeFrom start cs i = start + byteLength (cs.take i) := by
  induction cs generalizing start i with
  | nil => rw [placeFrom, List.take_nil, byteLength_nil, Nat.add_zero]
  | cons c cs ih =>
    cases i with
    | zero => rfl
    | succ i => rw [placeFrom, ih, List.take_succ_cons, byteLength_cons, Nat.add_assoc]

/-- The place of a character is behind those in front of it. -/
theorem placeOf_eq (cs : List Char) (i : Nat) : placeOf cs i = byteLength (cs.take i) := by
  rw [placeOf, placeFrom_eq, Nat.zero_add]

/-- A text can be cut at the place of a character. -/
theorem isBoundary_placeOf (cs : List Char) (i : Nat) : IsBoundary cs (placeOf cs i) :=
  ⟨cs.take i, cs.drop i, (List.take_append_drop i cs).symm, (placeOf_eq cs i).symm⟩

theorem take_append_drop_take (h : min i cs.length ≤ j) :
    cs.take i ++ (cs.take j).drop i = cs.take j := by
  by_cases hij : i ≤ j
  · have htake : cs.take i = (cs.take j).take i := by rw [List.take_take, Nat.min_eq_left hij]
    rw [htake, List.take_append_drop]
  · have hj : cs.length ≤ j := by omega
    rw [List.take_of_length_le hj, List.take_append_drop]

/-- Places come in the order of indices. -/
theorem placeOf_le_placeOf (h : min i cs.length ≤ j) : placeOf cs i ≤ placeOf cs j := by
  rw [placeOf_eq, placeOf_eq, ← take_append_drop_take h, byteLength_append]
  exact Nat.le_add_right _ _

/-- Between the places of two characters stand the characters from the one index to the other. -/
theorem slice_placeOf (h : min i cs.length ≤ j) :
    slice (placeOf cs i) (placeOf cs j) cs = some (cs.extract i j) := by
  have hparts : cs.take i ++ ((cs.take j).drop i ++ cs.drop j) = cs := by
    rw [← List.append_assoc, take_append_drop_take h, List.take_append_drop]
  have hslice := slice_append (cs.take i) ((cs.take j).drop i) (cs.drop j)
  rw [hparts, take_append_drop_take h, ← placeOf_eq, ← placeOf_eq, List.drop_take] at hslice
  exact hslice

end Brainfuck.Text
