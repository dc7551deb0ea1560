import Brainfuck.Text.Ranges

/-!
# Blank characters and trimming

A character is *blank* if it has the Unicode property `White_Space`. Trimming takes the blank
characters off both ends of a text and leaves those inside alone.

All texts here are lists of characters, so that they can be taken apart by recursion.
-/

namespace Brainfuck.Text

/-- The twenty-five code points with the property `White_Space`, as ranges with both ends
included. -/
def blankRanges : List (Nat × Nat) :=
  [(0x0009, 0x000D), (0x0020, 0x0020), (0x0085, 0x0085), (0x00A0, 0x00A0), (0x1680, 0x1680),
    (0x2000, 0x200A), (0x2028, 0x2029), (0x202F, 0x202F), (0x205F, 0x205F), (0x3000, 0x3000)]

/-- Whether a character is blank. -/
def isBlank (c : Char) : Bool := inRanges blankRanges c

/-- Take the blank characters off the front. -/
def trimLeft (cs : List Char) : List Char := cs.dropWhile isBlank

/-- Take the blank characters off the back. -/
def trimRight (cs : List Char) : List Char := (cs.reverse.dropWhile isBlank).reverse

/-- Take the blank characters off both ends. -/
def trim (cs : List Char) : List Char := trimRight (trimLeft cs)

/-- Put the letters `A` to `Z` into lower case and leave every other character as it is. -/
def lower (cs : List Char) : List Char := cs.map Char.toLower

/-! ## Trimming -/

@[simp] theorem trim_nil : trim [] = [] := rfl

theorem trimLeft_append_of_blank {pad cs : List Char} (h : ∀ c ∈ pad, isBlank c = true) :
    trimLeft (pad ++ cs) = trimLeft cs := by
  induction pad with
  | nil => rfl
  | cons c pad ih =>
    have hc : isBlank c = true := h c (List.mem_cons_self ..)
    have ih := ih fun d hd ↦ h d (List.mem_cons_of_mem _ hd)
    simpa [trimLeft, hc] using ih

theorem trimRight_append_of_blank {pad cs : List Char} (h : ∀ c ∈ pad, isBlank c = true) :
    trimRight (cs ++ pad) = trimRight cs := by
  have key : trimLeft (pad.reverse ++ cs.reverse) = trimLeft cs.reverse :=
    trimLeft_append_of_blank fun c hc ↦ h c (List.mem_reverse.1 hc)
  simpa [trimRight, trimLeft] using key

end Brainfuck.Text
