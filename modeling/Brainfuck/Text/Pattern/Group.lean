import Brainfuck.Text.Alphanumeric
import Brainfuck.Text.Pattern.Escape

/-!
# What opens a group

Behind an opening parenthesis there may be a question mark, and behind that the name of the group or
a change of flags. Flags without a group are closed at once. Looks ahead and behind are not known.
-/

namespace Brainfuck.Text.Pattern

/-- What stands behind an opening parenthesis. -/
inductive Opening where
  /-- A group, inside of which flags are changed. -/
  | group (change : FlagChange)
  /-- A group with a name. -/
  | named (name : List Char)
  /-- A change of flags for what follows, and the parenthesis that closes it. -/
  | flags (change : FlagChange)
deriving DecidableEq, Repr

/-- The letters for flags. -/
def flagLetters : List Char := ['i', 'm', 's', 'U', 'u', 'x', 'R']

/-- Turn a flag on or off. The flags that do not matter for what a pattern can ask for are left
out. -/
def FlagChange.set (c : FlagChange) (letter : Char) (value : Bool) : FlagChange :=
  if letter = 'u' then { c with unicode := some value }
  else if letter = 'i' then { c with caseless := some value }
  else if letter = 'x' then { c with verbose := some value }
  else c

/-- Read flags behind those in `seen`, the last one first. A dash turns off the flags behind it, so
there has to be one. -/
def readFlags (seen : List Char) (change : FlagChange) : List Char → Option (Opening × List Char)
  | [] => none
  | c :: cs =>
    if c = ':' ∨ c = ')' then
      if seen.head? = some '-' then none
      else if c = ':' then some (.group change, cs)
      else if seen = [] then none
      else some (.flags change, cs)
    else if seen.contains c then none
    else if c = '-' then readFlags (c :: seen) change cs
    else if flagLetters.contains c then
      readFlags (c :: seen) (change.set c (!seen.contains '-')) cs
    else none

/-- Whether a text can be the name of a group. -/
def isGroupName : List Char → Bool
  | [] => false
  | c :: cs =>
    (c = '_' || isLetter c)
      && cs.all fun c ↦ ['_', '.', '[', ']'].contains c || isAlphanumeric c

/-- Read the name of a group and the sign behind it. -/
def readName (cs : List Char) : Option (Opening × List Char) :=
  match cs.dropWhile (· ≠ '>') with
  | [] => none
  | _ :: rest =>
    if isGroupName (cs.takeWhile (· ≠ '>')) then some (.named (cs.takeWhile (· ≠ '>')), rest)
    else none

/-- Read what stands behind an opening parenthesis. -/
def readOpening (verbose : Bool) (cs : List Char) : Option (Opening × List Char) :=
  match skip verbose cs with
  | '?' :: 'P' :: '<' :: cs => readName cs
  | '?' :: '<' :: cs => readName cs
  | '?' :: cs => readFlags [] {} cs
  | cs => some (.group {}, cs)

end Brainfuck.Text.Pattern
