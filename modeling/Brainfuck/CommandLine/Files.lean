/-!
# A tree of files

The files a command can read, as a finite tree below a working directory. A path is followed one
name at a time: empty names and `.` stay where they are, `..` goes back up, and any other name goes
down. Every name but the last has to be a directory, and so has the last if a slash follows it.

There are limits to the length of a path and of each name in it, counted in bytes. That of the path
is looked at first, and that of a name where the name is looked up.
-/

namespace Brainfuck.CommandLine

/-- Why a file cannot be read as text. -/
inductive FileError where
  /-- There is nothing at the path. -/
  | notFound
  /-- There is a directory at the path. -/
  | isDirectory
  /-- The path goes through a file. -/
  | notDirectory
  /-- The path or a name in it is too long. -/
  | nameTooLong
  /-- The contents are not text in UTF-8. -/
  | notText
  /-- Anything else, with what is said about it. -/
  | other (text : String)
deriving DecidableEq, Repr

/-- What is said about a file that cannot be read. -/
def FileError.message : FileError → String
  | notFound => "No such file or directory (os error 2)"
  | isDirectory => "Is a directory (os error 21)"
  | notDirectory => "Not a directory (os error 20)"
  | nameTooLong => "File name too long (os error 36)"
  | notText => "stream did not contain valid UTF-8"
  | other text => text

/-- The number of bytes a path has to stay below. -/
def pathLimit : Nat := 4096

/-- The number of bytes a name can have. -/
def nameLimit : Nat := 255

/-- The names in a path, between its slashes. -/
def pathNames (path : String) : List String := (path.splitOn "/")

/-- A path with a name added behind it. -/
def joinPath (path name : String) : String :=
  if path = "" ∨ path.endsWith "/" then path ++ name else path ++ "/" ++ name

/-- The files below a working directory. Each is given by the names that lead to it. -/
structure FileTree where
  /-- The files with their contents. -/
  files : List (List String × ByteArray)

namespace FileTree

/-- The tree of files with the given paths. -/
def ofPaths (files : List (String × ByteArray)) : FileTree :=
  ⟨files.map fun file ↦ ((pathNames file.1).filter fun n ↦ n ≠ "" ∧ n ≠ ".", file.2)⟩

/-- Where following a path has led. -/
inductive Place where
  /-- The directory with these names, the last one first. -/
  | directory (names : List String)
  /-- A file with these contents. -/
  | file (contents : ByteArray)
  /-- Somewhere above the working directory, by this many levels. -/
  | above (levels : Nat)

/-- The error for a name that is in no directory. -/
def missing (name : String) : FileError :=
  if name.utf8ByteSize ≤ nameLimit then .notFound else .nameTooLong

/-- Go down from a directory to a name in it. -/
def enter (t : FileTree) (names : List String) (name : String) : Except FileError Place :=
  let names := name :: names
  match t.files.lookup names.reverse with
  | some contents => .ok (.file contents)
  | none =>
    if t.files.any fun file ↦ names.reverse.isPrefixOf file.1 then .ok (.directory names)
    else .error (missing name)

/-- Follow one name of a path. -/
def follow (t : FileTree) (name : String) : Place → Except FileError Place
  | .file _ => .error .notDirectory
  | .directory names =>
    if name = "" ∨ name = "." then .ok (.directory names)
    else if name = ".." then
      match names with
      | [] => .ok (.above 1)
      | _ :: names => .ok (.directory names)
    else t.enter names name
  | .above levels =>
    if name = "" ∨ name = "." then .ok (.above levels)
    else if name = ".." then .ok (.above (levels + 1))
    else .error (missing name)

/-- Where a path leads, read from the working directory. -/
def locate (t : FileTree) (path : String) : Except FileError Place :=
  if path = "" then .error .notFound
  else if pathLimit ≤ path.utf8ByteSize then .error .nameTooLong
  else
    (pathNames path).foldlM (fun place name ↦ t.follow name place)
      (if path.startsWith "/" then .above 0 else .directory [])

/-- The text in the file at a path. -/
def readText (t : FileTree) (path : String) : Except FileError String :=
  match t.locate path with
  | .error e => .error e
  | .ok (.directory _) | .ok (.above _) => .error .isDirectory
  | .ok (.file contents) =>
    match String.fromUTF8? contents with
    | some text => .ok text
    | none => .error .notText

end FileTree

end Brainfuck.CommandLine
