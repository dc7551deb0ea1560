import Brainfuck.CommandLine.Log
import Brainfuck.Text.Alphanumeric
import Brainfuck.Text.Blank
import Brainfuck.Text.Decimal
import Brainfuck.Text.Lines
import Brainfuck.Text.Numeral
import Brainfuck.Text.Pattern

/-!
# Directives for the log

How a filter for the log is written down. It is read from an environment variable, and where that is
not set, or cannot be read, there is a filter to fall back to.

## Directives

A filter is written as a list of directives, separated by commas. A directive has three parts, of
which it may leave out any but not all:

* the beginning of a target's name;
* in brackets, the name of a span or, in braces, of a field, perhaps with a value;
* behind an equals sign, a level. Without a level everything is shown.

A level cannot stand alone behind an equals sign, but it can stand alone as a word, and then it
speaks about every target.

Spans are stretches of time in which a program does something. This program marks none, so a
directive for a span has no effect on any event, and neither has one for the value of a field, for
which only spans are asked. It still has to be well formed: a value is a number or a regular
expression.

## Blanks

Places in a directive are counted from its first character that is not blank, but its parts are
taken from the text with its blanks. So blanks in front belong to the first part, and every cut
falls short by their length.

## Which directive counts

An event is judged by one directive: of those that fit it, the one that names the longest target,
then one that names a field, then the one whose field is the last in the order of names. Of two that
do not differ in this the later one counts. The event is shown if its level is at least as severe as
that directive's. If no directive fits it is not shown.
-/

namespace Brainfuck.CommandLine

/-! ## Ranks -/

/-- The words for the ranks up to which events are shown. -/
def verbosityWords : List (List Char × Nat) :=
  [("off".toList, 0), ("error".toList, 1), ("warn".toList, 2), ("info".toList, 3),
    ("debug".toList, 4), ("trace".toList, 5)]

/-- Read how chatty a log is to be: a rank as a numeral, or the word for it without regard to
case. -/
def verbosity? (cs : List Char) : Option Nat :=
  match Text.Numeral.parse cs with
  | .ok rank => if rank.toNat ≤ Level.trace.rank then some rank.toNat else none
  | .error _ => verbosityWords.lookup (Text.lower cs)

/-! ## Directives -/

/-- Which events of its target a directive speaks about. -/
inductive Scope where
  /-- All of them. -/
  | all
  /-- Those that have a field of this name. -/
  | field (name : List Char)
  /-- None, but spans. -/
  | spans
deriving DecidableEq, Repr

namespace Scope

/-- Whether an event with the given fields is meant. -/
def fits (fields : List (List Char)) : Scope → Bool
  | all => true
  | field name => fields.contains name
  | spans => false

/-- Whether one scope is at least as specific as another. -/
def atLeast : Scope → Scope → Bool
  | field a, field b => !decide (a < b)
  | field _, _ => true
  | _, field _ => false
  | _, _ => true

/-- Whether a text can be the value of a field. -/
def isValue (cs : List Char) : Bool := Text.Decimal.isNumber cs || Text.Pattern.isPattern cs

/-- Read what stands between braces: the name of a field, and perhaps a value behind an equals sign,
up to the next one. -/
def ofField (cs : List Char) : Option Scope :=
  match Text.fields '=' cs with
  | [] | [[]] => none
  | [name] => some (field name)
  | _ :: value :: _ => if isValue value then some spans else none

/-- Read what stands in brackets behind the place `start`, where `rest` is left to read of the
directive `cs`. The place behind the brackets and what is left there are given back. -/
def read (cs : List Char) (start : Nat) (rest : List Char) : Option (Scope × Nat × List Char) :=
  match Text.seek (fun c ↦ c = ']' || c = '\x7b') start rest with
  | none => none
  | some (place, ']', rest) => some (spans, place + 1, rest)
  | some (brace, _, rest) =>
    match Text.seek (· = '\x7d') (brace + 1) rest with
    | some (close, _, ']' :: rest) =>
      match Text.slice start brace cs, (Text.slice (brace + 1) close cs).bind ofField with
      | some name, some scope =>
        some (if name = [] then scope else spans, close + 2, rest)
      | _, _ => none
    | _ => none

end Scope

/-- Up to which rank the events are shown that a directive speaks about. -/
structure Directive where
  /-- The beginning of the target's name. -/
  target : List Char := []
  /-- Which events of the target are meant. -/
  scope : Scope := .all
  /-- The highest rank that is shown. -/
  rank : Nat
deriving DecidableEq, Repr

namespace Directive

/-- Read the level of a directive behind the place `start`. -/
def readRank (cs : List Char) (start : Nat) : Option Nat :=
  match Text.sliceFrom start cs with
  | none => none
  | some [] => some Level.trace.rank
  | some level => verbosity? level

/-- Read the rest of a directive for a target, behind the bracket in front of the place `start`. -/
def readScoped (cs target : List Char) (start : Nat) (rest : List Char) : Option Directive :=
  match Scope.read cs start rest with
  | none => none
  | some (scope, _, []) => some ⟨target, scope, Level.trace.rank⟩
  | some (scope, place, c :: _) =>
    if c = '=' then (readRank cs (place + 1)).map (⟨target, scope, ·⟩) else none

/-- Whether a directive can start with a character, other than with a bracket. -/
def isStart (c : Char) : Bool := c = '-' || c = ':' || c = '_' || Text.isAlphanumeric c

/-- Read a directive. -/
def parse (cs : List Char) : Option Directive :=
  match Text.trim cs with
  | [] => none
  | '[' :: rest => readScoped cs [] 1 rest
  | c :: rest =>
    if isStart c then
      match Text.seek (fun c ↦ c = '=' || c = '[') 0 (c :: rest) with
      | none =>
        match verbosity? cs with
        | some rank => some { rank }
        | none => some ⟨cs, .all, Level.trace.rank⟩
      | some (place, mark, rest) =>
        match Text.slice 0 place cs with
        | none => none
        | some target =>
          if mark = '=' then (readRank cs (place + 1)).map (⟨target, .all, ·⟩)
          else readScoped cs target (place + 1) rest
    else none

/-- Whether a directive speaks about events of a target with the given fields. -/
def fits (d : Directive) (target : List Char) (fields : List (List Char)) : Bool :=
  d.target.isPrefixOf target && d.scope.fits fields

/-- Whether one directive counts against another one in front of it, if both fit an event. -/
def overrides (d other : Directive) : Bool :=
  if d.target.length = other.target.length then d.scope.atLeast other.scope
  else other.target.length < d.target.length

end Directive

/-! ## Filters -/

namespace Directive

/-- Read a list of directives. Empty parts are passed over. -/
def parseAll (cs : List Char) : Option (List Directive) :=
  ((Text.fields ',' cs).filter (· ≠ [])).mapM parse

/-- Of two directives that fit an event the one that counts. -/
def moreSpecific (best : Option Directive) (d : Directive) : Option Directive :=
  match best with
  | none => some d
  | some b => if d.overrides b then some d else some b

/-- The rank up to which events are shown that come from a target and have the given fields. -/
def rankFor (ds : List Directive) (target : List Char) (fields : List (List Char)) : Nat :=
  (((ds.filter (·.fits target fields)).foldl moreSpecific none).map rank).getD 0

/-- The filter that is written by some directives. -/
def filter (ds : List Directive) : Filter :=
  fun k ↦ k.level.rank ≤ rankFor ds k.target k.fields

/-- The directives where none are set: warnings, and with `verbose` what the program does. -/
def standard (verbose : Bool) : List Directive :=
  if verbose then
    [{ rank := Level.warn.rank }, { target := "bf_vm".toList, rank := Level.debug.rank }]
  else [{ rank := Level.warn.rank }]

end Directive

/-- The environment variable for the filter. -/
def Filter.settingVariable : String := "RUST_LOG"

/-- The filter of a command: what the environment says, if that can be read. -/
def Filter.resolve (var : String → Option String) (verbose : Bool) : Filter :=
  Directive.filter
    (((var settingVariable).bind fun v ↦ Directive.parseAll v.toList).getD
      (Directive.standard verbose))

end Brainfuck.CommandLine
