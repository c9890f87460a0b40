import Brainfuck.Text.Decimal

/-!
# Reading files

A file is read whole, by its path. What can go wrong is named by its cause, and
`ReadError.message` has the wording of the operating system. A text file has to
be UTF-8.
-/

namespace Brainfuck

inductive ReadError where
  | noSuchFile
  | notDirectory
  | isDirectory
  | nameTooLong
  | nulInName
  | notText
  /-- Any other cause, with its description and the number the system has for it. -/
  | system (description : String) (number : Nat)
deriving DecidableEq

def ReadError.numbered (description : String) (number : Nat) : String :=
  description ++ " (os error " ++ Text.decimal number ++ ")"

def ReadError.message : ReadError → String
  | noSuchFile => numbered "No such file or directory" 2
  | notDirectory => numbered "Not a directory" 20
  | isDirectory => numbered "Is a directory" 21
  | nameTooLong => numbered "File name too long" 36
  | nulInName => "file name contained an unexpected NUL byte"
  | notText => "stream did not contain valid UTF-8"
  | system description number => numbered description number

/-- A path that leads from a directory to a name in it. -/
def joinPath (directory name : String) : String :=
  if directory = "" then
    name
  else if directory.toList.getLast? = some '/' then
    directory ++ name
  else
    directory ++ "/" ++ name

/-- The content of the file at each path, or why it cannot be read. -/
abbrev Files := String → Except ReadError ByteArray

def Files.readText (files : Files) (path : String) : Except ReadError String :=
  match files path with
  | .error e => .error e
  | .ok content =>
    match String.fromUTF8? content with
    | some text => .ok text
    | none => .error .notText

end Brainfuck
