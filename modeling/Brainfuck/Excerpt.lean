import Brainfuck.Machine.Error
import Brainfuck.Text.Lines

/-!
# Excerpts of a program

An error is shown together with the part of the program around it: a line that says what happened
and where, a line with the excerpt, and a line with a caret under the symbol in question.

## The window

The excerpt has the symbol itself and at most `radius` symbols on either side of it, counted in
characters. A control character in it would break the alignment of the caret and is shown as a
blank. The position may lie behind the end of the program, and then the excerpt is what is left of
the window.

## How an excerpt can fail

What is to be shown is said by `render`, which counts in characters all along. A program is stored
in bytes, though, and the window is cut out of it between two places. That is what `render?` does,
and it has two steps that could go wrong. A position is a word of 64 bits, and so is the end of its
window, before that is cut to the length of the program; a position so close to the largest word
that there is no such end is not shown. And a text can be cut only at places between characters, the
first of them not behind the second.
-/

namespace Brainfuck

namespace Excerpt

/-- How many symbols are shown on either side of a position. -/
def radius : Nat := 32

/-- The index of the first symbol in the window. -/
def start (pos : Nat) : Nat := pos - radius

/-- The index behind the last symbol in the window of a position in a program of the given
length. -/
def stop (pos length : Nat) : Nat := min (pos + radius + 1) length

/-- Whether a character controls the output instead of being part of it. -/
def isControl (c : Char) : Bool := c.toNat < 0x20 || (0x7F ≤ c.toNat && c.toNat < 0xA0)

/-- How a symbol is shown in an excerpt. -/
def shown (c : Char) : Char := if isControl c then ' ' else c

/-- The symbols around a position. -/
def window (code : List Char) (pos : Nat) : List Char :=
  (code.drop (start pos)).take (stop pos code.length - start pos)

/-- The symbols around a position, cut out of the program between two places. -/
def window? (code : List Char) (pos : Nat) : Option (List Char) :=
  Text.slice (Text.placeOf code (start pos)) (Text.placeOf code (stop pos code.length)) code

/-- The line with the excerpt. -/
def windowLine (window : List Char) : List Char := ' ' :: ' ' :: window.map shown

/-- The line with the caret. -/
def caretLine (pos : Nat) : List Char :=
  ' ' :: ' ' :: (List.replicate (pos - start pos) ' ' ++ ['^'])

/-- The lines that show a position under a heading, with the symbols around it. -/
def lines (heading : String) (window : List Char) (pos : Nat) : List String :=
  [heading ++ " at instruction " ++ pos.repr, String.ofList (windowLine window),
    String.ofList (caretLine pos)]

/-- The lines as a text. -/
def text (heading : String) (window : List Char) (pos : Nat) : String :=
  String.join ((lines heading window pos).map (· ++ "\n"))

/-- Show a position in a program under a heading. -/
def render (heading : String) (code : List Char) (pos : Nat) : String :=
  text heading (window code pos) pos

/-- Show a position, if the end of its window is a word and the window can be cut out. -/
def render? (heading : String) (code : List Char) (pos : Nat) : Option String :=
  if pos + radius + 1 < UInt64.size then (window? code pos).map (text heading · pos) else none

/-! ## The lines -/

/-- No line of an excerpt is broken by a symbol in it. -/
theorem newline_not_mem_windowLine (window : List Char) : '\n' ∉ windowLine window := by
  intro h
  simp only [windowLine, List.mem_cons, List.mem_map] at h
  rcases h with h | h | ⟨c, -, hc⟩
  · exact absurd h (by decide)
  · exact absurd h (by decide)
  · unfold shown at hc
    split at hc
    · exact absurd hc (by decide)
    · next hctl =>
      subst hc
      exact hctl (by decide)

end Excerpt

namespace RuntimeError

/-- What happened, without the place where it happened. -/
def headline : RuntimeError → String
  | terminated _ => "Runtime error: program already terminated"
  | unmatched _ side => "Runtime error: unmatched bracket '" ++ side.toChar.toString ++ "'"
  | device _ op f => "I/O error during '" ++ op.toString ++ "': " ++ f.text

/-- The heading over the excerpt for an error; `name` is the name of the command that reports it. -/
def heading (name : Option String) (e : RuntimeError) : String :=
  match name with
  | some name => name ++ ": " ++ e.headline
  | none => e.headline

/-- Show an error with the part of the program around it. -/
def render (name : Option String) (code : List Char) (e : RuntimeError) : String :=
  Excerpt.render (e.heading name) code e.ip

/-- Show an error if its position can be shown. -/
def render? (name : Option String) (code : List Char) (e : RuntimeError) : Option String :=
  Excerpt.render? (e.heading name) code e.ip

end RuntimeError

end Brainfuck
