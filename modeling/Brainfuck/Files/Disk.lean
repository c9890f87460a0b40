import Brainfuck.Files.Basic

/-!
# A disk in memory

Files and directories in a tree, and how a path leads to one of them. A path is
walked name by name from the root. An empty name and `.` stay where they are and
`..` goes up; each of them, like every other name, needs a directory to start
from. So a slash at the end of a path asks for a directory.
-/

namespace Brainfuck

inductive DiskEntry where
  | file (content : ByteArray)
  | directory

/-- A disk: what is at each place, a place being the names that lead to it from the root. The
places on the way to an entry are directories. -/
structure Disk where
  entries : List (List String × DiskEntry)

namespace Disk

def maxName : Nat :=
  255

def maxPath : Nat :=
  4095

/-- What is at a place. The root is always there. -/
def entry? (d : Disk) (place : List String) : Option DiskEntry :=
  match d.entries.lookup place with
  | some e => some e
  | none =>
    if place = [] ∨ d.entries.any (fun e => place.isPrefixOf e.1) then some .directory else none

/-- Follows one name from a place. -/
def follow (d : Disk) (here : List String) (name : String) : Except ReadError (List String) :=
  match d.entry? here with
  | none => .error .noSuchFile
  | some (.file _) => .error .notDirectory
  | some .directory =>
    if name = "" ∨ name = "." then
      .ok here
    else if name = ".." then
      .ok here.dropLast
    else if maxName < name.utf8ByteSize then
      .error .nameTooLong
    else if (d.entry? (here ++ [name])).isSome then
      .ok (here ++ [name])
    else
      .error .noSuchFile

def walk (d : Disk) (path : String) : Except ReadError (List String) :=
  if path.toList.contains '\x00' then
    .error .nulInName
  else if path = "" then
    .error .noSuchFile
  else if maxPath < path.utf8ByteSize then
    .error .nameTooLong
  else
    (path.splitOn "/").foldlM d.follow []

def files (d : Disk) : Files := fun path =>
  match d.walk path with
  | .error e => .error e
  | .ok place =>
    match d.entry? place with
    | some (.file content) => .ok content
    | some .directory => .error .isDirectory
    | none => .error .noSuchFile

end Disk

end Brainfuck
