import Brainfuck.Program.Basic

/-!
# Programs without their comments

Comments can be taken out of a program. Every command that is left keeps its place among the
commands, and its new index is the number of commands that were in front of it.
-/

namespace Brainfuck.Program

/-- Whether a symbol is a command. -/
def isCommand (c : Char) : Bool := (Command.ofChar? c).isSome

/-- The program without its comments. -/
def withoutComments (p : Program) : Program := p.filter isCommand

/-- How many commands there are among the first `k` symbols. -/
def commandsBefore (p : Program) (k : Nat) : Nat := (p.toList.take k).countP isCommand

@[simp] theorem toList_withoutComments (p : Program) :
    p.withoutComments.toList = p.toList.filter isCommand := by
  simp [withoutComments]

/-- The end of a program comes to lie at the end of the program without comments. -/
theorem commandsBefore_size (p : Program) : p.commandsBefore p.size = p.withoutComments.size := by
  have hsize : p.withoutComments.size = (p.toList.filter isCommand).length := by
    rw [← toList_withoutComments, Array.length_toList]
  rw [hsize, commandsBefore, ← Array.length_toList, List.take_length,
    List.countP_eq_length_filter]

theorem commandsBefore_succ {p : Program} {k : Nat} {c : Char} (h : p[k]? = some c) :
    p.commandsBefore (k + 1) = p.commandsBefore k + if isCommand c then 1 else 0 := by
  rw [← Array.getElem?_toList] at h
  simp [commandsBefore, List.take_add_one, h, List.countP_cons]

end Brainfuck.Program
