/-!
# Patterns

A *pattern* is what a regular expression says, as a tree. Whether a tree makes sense is decided by
two rules, about how deeply it is nested and about which characters it can speak of.

## Characters and bytes

A pattern is to match whole characters. There are no tables of characters here beyond ASCII: it is
not known which letters differ only in their case, and not which characters are digits, blanks or
parts of words. So a pattern can ask for none of that, unless it turns to bytes and with them to
ASCII. Where it does that, it can no longer ask for anything that a byte outside of ASCII would
match, because that byte is no whole character.

## Flags

Flags change what a pattern means from where they stand up to the end of the group they stand in,
over all its branches. Only two of them matter for what a pattern can ask for.
-/

namespace Brainfuck.Text.Pattern

/-! ## Flags -/

/-- The flags that decide what a pattern can ask for. -/
structure Flags where
  /-- The pattern speaks of characters, and not of bytes. -/
  unicode : Bool := true
  /-- Letters match in either case. -/
  caseless : Bool := false
deriving DecidableEq, Repr

/-- A change of flags. What is not mentioned stays as it is. -/
structure FlagChange where
  /-- Turn to characters or to bytes. -/
  unicode : Option Bool := none
  /-- Match letters in either case or not. -/
  caseless : Option Bool := none
  /-- Pass over blanks and comments or not. -/
  verbose : Option Bool := none
deriving DecidableEq, Repr

/-- The flags after a change. -/
def Flags.change (f : Flags) (c : FlagChange) : Flags where
  unicode := c.unicode.getD f.unicode
  caseless := c.caseless.getD f.caseless

/-! ## Trees -/

/-- A character in a pattern. -/
structure Literal where
  /-- The character. -/
  char : Char
  /-- It was given by the two digits of a byte. -/
  isByte : Bool := false
deriving DecidableEq, Repr

/-- An operation on two sets. -/
inductive SetOperation where
  | intersection
  | difference
  | symmetricDifference
deriving DecidableEq, Repr

/-- A set of characters, as it is written between brackets. -/
inductive CharSet where
  /-- Nothing. -/
  | empty
  /-- One character. -/
  | literal (l : Literal)
  /-- The characters from one to another. -/
  | range (first last : Literal)
  /-- One of the named sets of ASCII, or its complement. -/
  | named (name : List Char) (negated : Bool)
  /-- The digits, the blanks or the parts of words, or the complement. -/
  | shorthand (negated : Bool)
  /-- A set in brackets of its own, or its complement. -/
  | bracketed (negated : Bool) (s : CharSet)
  /-- All of several sets. -/
  | union (sets : List CharSet)
  /-- Two sets combined. -/
  | operation (op : SetOperation) (left right : CharSet)
deriving Repr

/-- A pattern. -/
inductive Node where
  /-- Nothing. -/
  | empty
  /-- One character. -/
  | literal (l : Literal)
  /-- Any character. -/
  | any
  /-- The beginning or the end of a line or of the text. -/
  | anchor
  /-- A boundary of a word, or a place that is none. -/
  | boundary
  /-- A digit, a blank or a part of a word, or anything else. -/
  | shorthand (negated : Bool)
  /-- A character of a set, or of its complement. -/
  | set (negated : Bool) (s : CharSet)
  /-- A change of flags for what follows. -/
  | flags (change : FlagChange)
  /-- Something a number of times. -/
  | repetition (operand : Node)
  /-- A group, inside of which flags are changed. -/
  | group (change : FlagChange) (body : Node)
  /-- One of several branches. -/
  | alternation (branches : List Node)
  /-- Several parts, one behind the other. -/
  | sequence (parts : List Node)
deriving Repr

/-- Several sets as one. -/
def CharSet.ofList : List CharSet → CharSet
  | [] => .empty
  | [s] => s
  | sets => .union sets

/-- Several parts as one. -/
def Node.ofList : List Node → Node
  | [] => .empty
  | [n] => n
  | parts => .sequence parts

/-! ## Depth -/

mutual

/-- How deeply a set is nested. -/
def CharSet.depth : CharSet → Nat
  | .empty | .literal _ | .range _ _ | .named _ _ | .shorthand _ => 0
  | .bracketed _ s => s.depth + 1
  | .union sets => CharSet.depthOfAll sets + 1
  | .operation _ left right => max left.depth right.depth + 1

/-- How deeply the deepest of some sets is nested. -/
def CharSet.depthOfAll : List CharSet → Nat
  | [] => 0
  | s :: sets => max s.depth (CharSet.depthOfAll sets)

end

mutual

/-- How deeply a pattern is nested. -/
def Node.depth : Node → Nat
  | .empty | .literal _ | .any | .anchor | .boundary | .shorthand _ | .flags _ => 0
  | .set _ s => s.depth + 1
  | .repetition operand => operand.depth + 1
  | .group _ body => body.depth + 1
  | .alternation branches => Node.depthOfAll branches + 1
  | .sequence parts => Node.depthOfAll parts + 1

/-- How deeply the deepest of some patterns is nested. -/
def Node.depthOfAll : List Node → Nat
  | [] => 0
  | node :: nodes => max node.depth (Node.depthOfAll nodes)

end

/-! ## What can be asked for -/

/-- Whether a character is one of ASCII. -/
def Literal.isAscii (l : Literal) : Bool := l.char.toNat < 0x80

/-- Whether flags allow a character on its own. -/
def Literal.allowed (f : Flags) (l : Literal) : Bool :=
  if f.unicode then !f.caseless else l.isAscii || !l.isByte

/-- Whether flags allow a character in a set. -/
def Literal.allowedInSet (f : Flags) (l : Literal) : Bool :=
  if f.unicode then !f.caseless else l.isAscii

/-- Whether flags allow the complement of a set. -/
def Flags.allowComplement (f : Flags) (negated : Bool) : Bool := f.unicode || !negated

mutual

/-- Whether flags allow a set. -/
def CharSet.allowed (f : Flags) : CharSet → Bool
  | .empty => true
  | .literal l => l.allowedInSet f
  | .range first last => first.allowedInSet f && last.allowedInSet f
  | .named _ negated => if f.unicode then !f.caseless else !negated
  | .shorthand negated => !f.unicode && !negated
  | .bracketed negated s => s.allowed f && f.allowComplement negated
  | .union sets => CharSet.allAllowed f sets
  | .operation _ left right => left.allowed f && right.allowed f

/-- Whether flags allow all of some sets. -/
def CharSet.allAllowed (f : Flags) : List CharSet → Bool
  | [] => true
  | s :: sets => s.allowed f && CharSet.allAllowed f sets

end

mutual

/-- The flags behind a pattern, if those in front of it allow it. -/
def Node.flagsBehind (f : Flags) : Node → Option Flags
  | .empty | .anchor => some f
  | .literal l => if l.allowed f then some f else none
  | .any => if f.unicode then some f else none
  | .boundary => if f.unicode then none else some f
  | .shorthand negated => if !f.unicode && !negated then some f else none
  | .set negated s => if s.allowed f && f.allowComplement negated then some f else none
  | .flags change => some (f.change change)
  | .repetition operand => operand.flagsBehind f
  | .group change body => (body.flagsBehind (f.change change)).map fun _ ↦ f
  | .alternation branches => Node.flagsBehindAll f branches
  | .sequence parts => Node.flagsBehindAll f parts

/-- The flags behind several patterns, one behind the other. -/
def Node.flagsBehindAll (f : Flags) : List Node → Option Flags
  | [] => some f
  | node :: nodes =>
    match node.flagsBehind f with
    | none => none
    | some f => Node.flagsBehindAll f nodes

end

/-- How deeply a pattern can be nested. -/
def depthLimit : Nat := 250

/-- Whether a pattern makes sense. -/
def Node.isValid (n : Node) : Bool := n.depth ≤ depthLimit && (n.flagsBehind {}).isSome

end Brainfuck.Text.Pattern
