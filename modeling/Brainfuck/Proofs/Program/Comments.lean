import Brainfuck.Program.Comments
import Brainfuck.Proofs.Program.Collapse

/-!
# Loops without comments

When the comments are taken out of a program the symbol at index `k` comes to lie at
`commandsBefore k`, if it is a command. This map goes up by one at a command and stands still at a
comment. Comments have no part in heights, so the loops of the program are those of the program
without comments.
-/

namespace Brainfuck.Program

variable {p : Program} {i j k : Nat}

/-! ## The map -/

theorem isCommand_toChar (op : Command) : isCommand op.toChar = true := by
  rw [isCommand, Command.ofChar?_toChar]
  rfl

theorem commandsBefore_succ_of_command (h : (p.commandAt k).isSome) :
    p.commandsBefore (k + 1) = p.commandsBefore k + 1 := by
  obtain ⟨op, hop⟩ := Option.isSome_iff_exists.1 h
  rw [commandsBefore_succ (commandAt_eq_some_iff.1 hop), if_pos (isCommand_toChar op)]

theorem commandsBefore_succ_of_comment (h : p.commandAt k = none) :
    p.commandsBefore (k + 1) = p.commandsBefore k := by
  cases hk : p[k]? with
  | some c =>
    have hcomment : isCommand c = false := by
      rw [isCommand, ← commandAt_of_getElem? hk, h]
      rfl
    rw [commandsBefore_succ hk, hcomment]
    rfl
  | none =>
    -- behind the program there is nothing to count
    have hsize : p.toList.length ≤ k := by
      rw [Array.length_toList]
      exact Array.getElem?_eq_none_iff.1 hk
    rw [commandsBefore, commandsBefore, List.take_of_length_le hsize,
      List.take_of_length_le (by omega)]

theorem commandsBefore_le (h : i ≤ j) : p.commandsBefore i ≤ p.commandsBefore j :=
  (List.take_prefix_take_left h).sublist.countP_le

/-! ## The program without comments -/

/-- The first commands are what is left of the first symbols. -/
theorem take_withoutComments (p : Program) (k : Nat) :
    p.withoutComments.toList.take (p.commandsBefore k) = (p.toList.take k).filter isCommand := by
  have hsplit : p.withoutComments.toList =
      (p.toList.take k).filter isCommand ++ (p.toList.drop k).filter isCommand := by
    rw [toList_withoutComments, ← List.filter_append, List.take_append_drop]
  rw [hsplit, commandsBefore, List.countP_eq_length_filter, List.take_left]

theorem height_withoutComments (p : Program) (k : Nat) :
    p.withoutComments.height (p.commandsBefore k) = p.height k := by
  rw [height, height, take_withoutComments, opened, opened, closed, closed,
    List.count_filter rfl, List.count_filter rfl]

theorem commandAt_withoutComments (h : (p.commandAt k).isSome) :
    p.withoutComments.commandAt (p.commandsBefore k) = p.commandAt k := by
  obtain ⟨op, hop⟩ := Option.isSome_iff_exists.1 h
  have hk := commandAt_eq_some_iff.1 hop
  rw [← Array.getElem?_toList, List.getElem?_eq_some_iff] at hk
  obtain ⟨hlt, hget⟩ := hk
  have hsplit : p.withoutComments.toList = (p.toList.take k).filter isCommand ++
      op.toChar :: (p.toList.drop (k + 1)).filter isCommand := by
    rw [toList_withoutComments, ← List.filter_cons_of_pos (isCommand_toChar op),
      ← List.filter_append, ← hget, ← List.drop_eq_getElem_cons hlt, List.take_append_drop]
  have hfound := getElem?_of_toList_eq hsplit
  rw [← List.countP_eq_length_filter] at hfound
  rw [hop]
  exact commandAt_eq_some_iff.2 hfound

/-- Taking out the comments takes out no bracket. -/
theorem collapses_withoutComments (p : Program) :
    p.Collapses p.withoutComments p.commandsBefore where
  zero := rfl
  succ k := by
    by_cases hk : (p.commandAt k).isSome
    · exact Or.inr (commandsBefore_succ_of_command hk)
    · exact Or.inl (commandsBefore_succ_of_comment (Option.not_isSome_iff_eq_none.1 hk))
  size := commandsBefore_size p
  command k hkept := by
    apply commandAt_withoutComments
    by_contra hk
    rw [commandsBefore_succ_of_comment (Option.not_isSome_iff_eq_none.1 hk)] at hkept
    omega
  height := height_withoutComments p

end Brainfuck.Program
