import Brainfuck.Program.Brackets

/-!
# Balanced programs

The brackets of a program are balanced if no beginning of it closes more loops than it opens, and
the whole program closes as many as it opens. This is a condition on counts. It says nothing about
partners, and a program that fails it may still have loops whose brackets match.
-/

namespace Brainfuck.Program

/-- How many loops some symbols open. -/
def opened (cs : List Char) : Nat := cs.count Command.loopStart.toChar

/-- How many loops some symbols close. -/
def closed (cs : List Char) : Nat := cs.count Command.loopEnd.toChar

/-- The brackets of a program are balanced. -/
def Balanced (p : Program) : Prop :=
  (∀ k, closed (p.toList.take k) ≤ opened (p.toList.take k)) ∧ opened p.toList = closed p.toList

/-- Only the beginnings up to the whole program have to be looked at. -/
instance (p : Program) : Decidable p.Balanced :=
  decidable_of_iff ((∀ k, k ≤ p.size → closed (p.toList.take k) ≤ opened (p.toList.take k)) ∧
      opened p.toList = closed p.toList) <| by
    refine and_congr_left fun htotal ↦ ⟨fun h k ↦ ?_, fun h k _ ↦ h k⟩
    rcases Nat.le_total k p.size with hk | hk
    · exact h k hk
    · rw [List.take_of_length_le (by rw [Array.length_toList]; exact hk)]
      exact Nat.le_of_eq htotal.symm

/-- Every loop that a program opens has its end in the program. -/
def LoopsEnd (p : Program) : Prop :=
  ∀ i, p.commandAt i = some .loopStart → (p.closing? i).isSome

/-- Only the indexes in the program have to be looked at. -/
instance (p : Program) : Decidable p.LoopsEnd :=
  decidable_of_iff (∀ i, i < p.size → p.commandAt i = some .loopStart → (p.closing? i).isSome)
    ⟨fun h i hi ↦ h i (lt_size_of_commandAt hi) hi, fun h i _ hi ↦ h i hi⟩

@[simp] theorem opened_nil : opened [] = 0 := rfl

@[simp] theorem closed_nil : closed [] = 0 := rfl

theorem opened_append (as bs : List Char) : opened (as ++ bs) = opened as + opened bs :=
  List.count_append ..

theorem closed_append (as bs : List Char) : closed (as ++ bs) = closed as + closed bs :=
  List.count_append ..

end Brainfuck.Program
