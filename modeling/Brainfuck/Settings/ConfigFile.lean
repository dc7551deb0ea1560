import Brainfuck.Settings.Basic
import Brainfuck.Text.Lines

/-!
# Configuration files

A configuration file is a text of lines. A header `[name]` opens a section, an entry `key = value`
says something within the section it stands in, and every other line is passed over: blank lines,
lines that start with `#`, and lines that make no sense.

## What counts

Only entries in sections named `run` count, however often such a section is opened. Of several
entries with one key the last counts, also if its value cannot be read, and then the setting keeps
the value it has where nothing is said.

## Values

A value may stand between double quotes, and one pair of them is taken off. Blanks around lines,
names, keys and values do not matter, but blanks between the quotes belong to the value.
-/

namespace Brainfuck

namespace ConfigFile

/-- What a line of a configuration file says. -/
inductive Line where
  /-- A section with this name starts here. -/
  | header (name : List Char)
  /-- The value for a key. -/
  | entry (key value : List Char)
  /-- Nothing. -/
  | idle
deriving DecidableEq, Repr

/-- Take one pair of double quotes off a value. -/
def unquote (cs : List Char) : List Char :=
  ((Text.dropFirst? '"' cs).bind (Text.dropLast? '"')).getD cs

/-- The name of the section that a line opens. The line has no blanks around it. -/
def sectionName? (l : List Char) : Option (List Char) :=
  ((Text.dropFirst? '[' l).bind (Text.dropLast? ']')).map Text.trim

/-- The key and the value of an entry. -/
def keyValue? (l : List Char) : Option (List Char × List Char) :=
  (Text.cutAt '=' l).map fun (key, value) ↦ (Text.trim key, unquote (Text.trim value))

/-- What a line without blanks around it says. -/
def Line.ofTrimmed (l : List Char) : Line :=
  if l = [] ∨ l.head? = some '#' then .idle
  else
    match sectionName? l with
    | some name => .header name
    | none =>
      match keyValue? l with
      | some (key, value) => .entry key value
      | none => .idle

/-- What the lines of a text say. -/
def parse (cs : List Char) : List Line := (Text.lines cs).map fun l ↦ Line.ofTrimmed (Text.trim l)

/-- The entries that stand in sections with the name `name`, in their order; `inside` says whether
the first line is in such a section. -/
def entriesOf (name : List Char) : (inside : Bool) → List Line → List (List Char × List Char)
  | _, [] => []
  | _, .header n :: ls => entriesOf name (n = name) ls
  | inside, .entry key value :: ls =>
    if inside then (key, value) :: entriesOf name inside ls else entriesOf name inside ls
  | inside, .idle :: ls => entriesOf name inside ls

/-- The value of the last entry with a key. -/
def lastValue (key : List Char) (entries : List (List Char × List Char)) : Option (List Char) :=
  entries.reverse.lookup key

/-- The name of the sections that count. -/
def runSection : List Char := "run".toList

/-- The entries that count. -/
def runEntries (cs : List Char) : List (List Char × List Char) :=
  entriesOf runSection false (parse cs)

end ConfigFile

namespace Settings

/-- The settings that some entries ask for. -/
def ofEntries (entries : List (List Char × List Char)) : Settings where
  delay := (ConfigFile.lastValue "delay_ms".toList entries).bind delay?
  input := ((ConfigFile.lastValue "input".toList entries).bind truth?).getD true
  output := ((ConfigFile.lastValue "output".toList entries).bind truth?).getD true
  policy := ((ConfigFile.lastValue "io_policy".toList entries).bind policy?).getD .standard

/-- The settings in a configuration file. -/
def ofConfig (cs : List Char) : Settings := ofEntries (ConfigFile.runEntries cs)

end Settings

end Brainfuck
