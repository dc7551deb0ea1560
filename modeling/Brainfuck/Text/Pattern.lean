import Brainfuck.Text.Pattern.Brackets
import Brainfuck.Text.Pattern.Group

/-!
# Regular expressions

Which texts are regular expressions. A text is read from left to right into a pattern, with a stack
of *frames*, one for each group that is open, and then it is asked whether the pattern makes sense.

Counts in braces are not known here.
-/

namespace Brainfuck.Text.Pattern

/-- What is kept of the text around a group while the group is read. -/
structure GroupFrame where
  /-- The change of flags inside of the group. -/
  change : FlagChange
  /-- The text around the group is verbose. -/
  verbose : Bool
  /-- The parts in front of the group, the last one first. -/
  parts : List Node
  /-- The branches in front of these parts, the last one first. -/
  branches : List Node

/-- What is known while an expression is read. -/
structure Reading where
  /-- The names of groups so far. -/
  names : List (List Char) := []
  /-- The text is verbose. -/
  verbose : Bool := false
  /-- The parts of the branch that is read, the last one first. -/
  parts : List Node := []
  /-- The branches in front of it, the last one first. -/
  branches : List Node := []
  /-- The groups that are open, the innermost one first. -/
  outer : List GroupFrame := []

namespace Reading

/-- Add a part. -/
def add (r : Reading) (n : Node) : Reading := { r with parts := n :: r.parts }

/-- The branch that is read. -/
def branch (r : Reading) : Node := .ofList r.parts.reverse

/-- The group that is read. -/
def body (r : Reading) : Node :=
  if r.branches.isEmpty then r.branch else .alternation (r.branch :: r.branches).reverse

/-- Begin a group. -/
def enter (r : Reading) (change : FlagChange) : Reading :=
  { r with
    verbose := change.verbose.getD r.verbose
    parts := []
    branches := []
    outer := ⟨change, r.verbose, r.parts, r.branches⟩ :: r.outer }

/-- Go on behind an opening parenthesis. -/
def begin (r : Reading) : Opening → Option Reading
  | .group change => some (r.enter change)
  | .named name =>
    if r.names.contains name then none else some { r.enter {} with names := name :: r.names }
  | .flags change => some { r.add (.flags change) with verbose := change.verbose.getD r.verbose }

/-- End a group. -/
def leave (r : Reading) : Option Reading :=
  match r.outer with
  | [] => none
  | f :: outer =>
    some
      { r with
        verbose := f.verbose
        parts := .group f.change r.body :: f.parts
        branches := f.branches
        outer }

/-- Repeat the last part. There has to be one, and flags are none. -/
def repeatLast (r : Reading) : Option Reading :=
  match r.parts with
  | [] | .flags _ :: _ => none
  | n :: parts => some { r with parts := .repetition n :: parts }

/-- The part that an escape stands for. -/
def ofEscape : Escape → Node
  | .literal l => .literal l
  | .shorthand negated => .shorthand negated
  | .anchor => .anchor
  | .boundary => .boundary

/-- Take off the question mark that makes a repetition a lazy one. -/
def dropLazy : List Char → List Char
  | '?' :: cs => cs
  | cs => cs

/-- Read one part of an expression, which starts with `c`. There are no more than `fuel` characters
behind it. -/
def step (fuel : Nat) (r : Reading) (c : Char) (cs : List Char) : Option (Reading × List Char) :=
  match c with
  | '(' =>
    match readOpening r.verbose cs with
    | none => none
    | some (opening, rest) => (r.begin opening).map (·, rest)
  | ')' => r.leave.map (·, cs)
  | '|' => some ({ r with parts := [], branches := r.branch :: r.branches }, cs)
  | '*' | '+' | '?' => r.repeatLast.map (·, dropLazy cs)
  | '\x7b' => none
  | '[' => (readSet r.verbose fuel cs).map fun (n, rest) ↦ (r.add n, rest)
  | '\\' => (readEscape r.verbose cs).map fun (e, rest) ↦ (r.add (ofEscape e), rest)
  | '.' => some (r.add .any, cs)
  | '^' | '$' => some (r.add .anchor, cs)
  | c => some (r.add (.literal ⟨c, false⟩), cs)

/-- Read the rest of an expression. -/
def readAll (fuel : Nat) (r : Reading) (cs : List Char) : Option Node :=
  match skip r.verbose cs with
  | [] => if r.outer.isEmpty then some r.body else none
  | c :: cs =>
    match fuel with
    | 0 => none
    | fuel + 1 =>
      match r.step fuel c cs with
      | none => none
      | some (r, rest) => readAll fuel r rest

end Reading

/-- Read a regular expression. Each part has a character at least, so there are no more parts than
characters. -/
def parse (cs : List Char) : Option Node := Reading.readAll cs.length {} cs

/-- Whether a text is a regular expression that makes sense. -/
def isPattern (cs : List Char) : Bool :=
  match parse cs with
  | none => false
  | some n => n.isValid

end Brainfuck.Text.Pattern
