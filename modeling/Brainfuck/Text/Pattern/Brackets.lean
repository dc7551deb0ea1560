import Brainfuck.Text.Pattern.Escape

/-!
# Sets in brackets

A set is written between brackets: characters, ranges, the named sets of ASCII, and sets in brackets
of their own. Two signs in a row combine what stands on their left with what stands on their right,
up to the next such signs, so operations are read from left to right.

A set is read with a stack of *frames*, one for each bracket that is open.
-/

namespace Brainfuck.Text.Pattern

/-! ## Items -/

/-- Read a character in a set, or an escape. -/
def readItem (verbose : Bool) : List Char → Option (Escape × List Char)
  | [] => none
  | '\\' :: cs => readEscape verbose cs
  | c :: cs => some (.literal ⟨c, false⟩, cs)

/-- The set that an escape stands for. -/
def Escape.toSet? : Escape → Option CharSet
  | .literal l => some (.literal l)
  | .shorthand negated => some (.shorthand negated)
  | .anchor | .boundary => none

/-- The range from one escape to another. Both have to be characters, in order. -/
def Escape.range? : Escape → Escape → Option CharSet
  | .literal first, .literal last =>
    if first.char ≤ last.char then some (.range first last) else none
  | _, _ => none

/-- Read an item of a set, or a range from one character to another. A dash that is followed by the
end of the set or by another dash makes no range. -/
def readRange (verbose : Bool) (cs : List Char) : Option (CharSet × List Char) :=
  match readItem verbose cs with
  | none => none
  | some (first, rest) =>
    match skip verbose rest with
    | [] => none
    | '-' :: more =>
      if glance verbose more = some ']' ∨ glance verbose more = some '-' then
        first.toSet?.map (·, '-' :: more)
      else
        match readItem verbose (skip verbose more) with
        | none => none
        | some (last, rest) => (first.range? last).map (·, rest)
    | rest => first.toSet?.map (·, rest)

/-- The names of sets of ASCII. -/
def setNames : List (List Char) :=
  ["alnum".toList, "alpha".toList, "ascii".toList, "blank".toList, "cntrl".toList, "digit".toList,
    "graph".toList, "lower".toList, "print".toList, "punct".toList, "space".toList, "upper".toList,
    "word".toList, "xdigit".toList]

/-- Read the name of a set of ASCII, perhaps behind the sign of its complement, up to the closing
bracket. -/
def readSetName (negated : Bool) (cs : List Char) : Option (CharSet × List Char) :=
  match cs.dropWhile (· ≠ ':') with
  | ':' :: ']' :: rest =>
    if setNames.contains (cs.takeWhile (· ≠ ':')) then
      some (.named (cs.takeWhile (· ≠ ':')) negated, rest)
    else none
  | _ => none

/-- Read a named set of ASCII behind its opening bracket. -/
def readNamed : List Char → Option (CharSet × List Char)
  | ':' :: '^' :: cs => readSetName true cs
  | ':' :: cs => readSetName false cs
  | _ => none

/-! ## Frames -/

/-- A set that is not closed yet. -/
structure SetFrame where
  /-- The complement is meant. -/
  negated : Bool
  /-- What has been read since the bracket or the last operation, the last item first. -/
  items : List CharSet := []
  /-- What stands on the left of the last operation, with that operation. -/
  left : Option (CharSet × SetOperation) := none

namespace SetFrame

/-- Add an item. -/
def add (f : SetFrame) (item : CharSet) : SetFrame := { f with items := item :: f.items }

/-- Everything that has been read. -/
def set (f : SetFrame) : CharSet :=
  match f.left with
  | none => .ofList f.items.reverse
  | some (left, op) => .operation op left (.ofList f.items.reverse)

/-- Go on behind the signs of an operation. -/
def combine (f : SetFrame) (op : SetOperation) : SetFrame :=
  { f with items := [], left := some (f.set, op) }

end SetFrame

/-- Read the dashes at the beginning of a set. Each of them stands for itself. -/
def readDashes (verbose : Bool) : (fuel : Nat) → SetFrame → List Char → SetFrame × List Char
  | fuel + 1, f, '-' :: cs =>
    readDashes verbose fuel (f.add (.literal ⟨'-', false⟩)) (skip verbose cs)
  | _, f, cs => (f, cs)

/-- Read the beginning of a set behind its opening bracket: the sign of its complement, and then
dashes, or a closing bracket that stands for itself. There are no more than `fuel` characters
left. -/
def openSet (verbose : Bool) (fuel : Nat) (cs : List Char) : SetFrame × List Char :=
  let (negated, cs) := match skip verbose cs with
    | '^' :: cs => (true, skip verbose cs)
    | cs => (false, cs)
  match cs with
  | ']' :: cs => (SetFrame.add { negated } (.literal ⟨']', false⟩), skip verbose cs)
  | cs => readDashes verbose fuel { negated } cs

/-- Read the rest of a set, in the frame `f` inside of some outer ones. -/
def readFrames (verbose : Bool) :
    (fuel : Nat) → (f : SetFrame) → (outer : List SetFrame) → List Char → Option (Node × List Char)
  | 0, _, _, _ => none
  | fuel + 1, f, outer, cs =>
    match skip verbose cs with
    | [] => none
    | '[' :: cs =>
      match readNamed cs with
      | some (item, rest) => readFrames verbose fuel (f.add item) outer rest
      | none =>
        let (inner, rest) := openSet verbose fuel cs
        readFrames verbose fuel inner (f :: outer) rest
    | ']' :: cs =>
      match outer with
      | [] => some (.set f.negated f.set, cs)
      | parent :: outer =>
        readFrames verbose fuel (parent.add (.bracketed f.negated f.set)) outer cs
    | '&' :: '&' :: cs => readFrames verbose fuel (f.combine .intersection) outer cs
    | '-' :: '-' :: cs => readFrames verbose fuel (f.combine .difference) outer cs
    | '~' :: '~' :: cs => readFrames verbose fuel (f.combine .symmetricDifference) outer cs
    | cs =>
      match readRange verbose cs with
      | none => none
      | some (item, rest) => readFrames verbose fuel (f.add item) outer rest

/-- Read a set behind its opening bracket. There are no more than `fuel` characters left. -/
def readSet (verbose : Bool) (fuel : Nat) (cs : List Char) : Option (Node × List Char) :=
  let (f, rest) := openSet verbose fuel cs
  readFrames verbose (fuel + 1) f [] rest

end Brainfuck.Text.Pattern
