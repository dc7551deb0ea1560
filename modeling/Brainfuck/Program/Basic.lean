/-!
# Programs

A program is a text, read one symbol at a time. Eight characters are commands; every other
character is a comment, which takes a step and does nothing else.

## Why a program is its text

Symbols are counted as characters, comments included, and every error names the index of the symbol
that caused it. Loops are not resolved when a program is made, because a loop whose brackets do not
match is an error only if the jump is taken. So a program is nothing more than its characters, held
in an array.
-/

namespace Brainfuck

/-! ## Commands -/

/-- The eight commands. -/
inductive Command where
  /-- Move the head one cell to the right. -/
  | right
  /-- Move the head one cell to the left. -/
  | left
  /-- Add one to the cell under the head. -/
  | increment
  /-- Subtract one from the cell under the head. -/
  | decrement
  /-- Write the cell under the head to the output device. -/
  | output
  /-- Store a byte of the input device in the cell under the head. -/
  | input
  /-- Skip the loop that starts here if the cell under the head is `0`. -/
  | loopStart
  /-- Repeat the loop that ends here unless the cell under the head is `0`. -/
  | loopEnd
deriving DecidableEq, Repr

namespace Command

/-- The character that stands for a command. -/
def toChar : Command → Char
  | right => '>'
  | left => '<'
  | increment => '+'
  | decrement => '-'
  | output => '.'
  | input => ','
  | loopStart => '['
  | loopEnd => ']'

/-- The command that a character stands for, if it is not a comment. -/
def ofChar? (c : Char) : Option Command :=
  if c = '>' then some right
  else if c = '<' then some left
  else if c = '+' then some increment
  else if c = '-' then some decrement
  else if c = '.' then some output
  else if c = ',' then some input
  else if c = '[' then some loopStart
  else if c = ']' then some loopEnd
  else none

@[simp] theorem ofChar?_toChar (k : Command) : ofChar? k.toChar = some k := by
  cases k <;> rfl

theorem ofChar?_eq_some_iff {c : Char} {k : Command} : ofChar? c = some k ↔ c = k.toChar := by
  constructor
  · intro h
    unfold ofChar? at h
    split at h <;> grind [toChar]
  · rintro rfl
    exact ofChar?_toChar k

end Command

/-! ## Programs -/

/-- A program is the row of its symbols. -/
abbrev Program := Array Char

namespace Program

/-- The program with the given text. -/
def ofString (s : String) : Program := s.toList.toArray

/-- The text of a program. -/
def text (p : Program) : String := String.ofList p.toList

/-- The command at index `i`, if there is one. -/
def commandAt (p : Program) (i : Nat) : Option Command := p[i]?.bind Command.ofChar?

@[simp] theorem toList_ofString (s : String) : (ofString s).toList = s.toList := by
  simp [ofString]

@[simp] theorem size_ofString (s : String) : (ofString s).size = s.toList.length := by
  simp [ofString]

@[simp] theorem text_ofString (s : String) : (ofString s).text = s := by
  simp [text]

theorem lt_size_of_commandAt {p : Program} {i : Nat} {k : Command}
    (h : p.commandAt i = some k) : i < p.size := by
  rw [commandAt, Option.bind_eq_some_iff] at h
  obtain ⟨c, hc, -⟩ := h
  exact (Array.getElem?_eq_some_iff.1 hc).1

theorem commandAt_eq_none {p : Program} {i : Nat} (h : p.size ≤ i) : p.commandAt i = none := by
  rw [commandAt, Array.getElem?_eq_none h, Option.bind_none]

theorem commandAt_of_getElem? {p : Program} {i : Nat} {c : Char} (h : p[i]? = some c) :
    p.commandAt i = Command.ofChar? c := by
  rw [commandAt, h, Option.bind_some]

/-- The symbol behind a beginning of the text. -/
theorem getElem?_of_toList_eq {p : Program} {as bs : List Char} {c : Char}
    (h : p.toList = as ++ c :: bs) : p[as.length]? = some c := by
  rw [← Array.getElem?_toList, h, List.getElem?_append_right (Nat.le_refl _), Nat.sub_self]
  rfl

theorem commandAt_eq_some_iff {p : Program} {i : Nat} {k : Command} :
    p.commandAt i = some k ↔ p[i]? = some k.toChar := by
  simp [commandAt, Option.bind_eq_some_iff, Command.ofChar?_eq_some_iff]

end Program

end Brainfuck
