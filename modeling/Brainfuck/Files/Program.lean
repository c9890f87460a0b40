import Brainfuck.Files.Basic
import Brainfuck.Instruction

/-!
# Program files

A program file is a text; the program is what remains of it when every
character that is no instruction is left out.
-/

namespace Brainfuck

structure LoadError where
  path : String
  cause : ReadError
deriving DecidableEq

def LoadError.message (e : LoadError) : String :=
  "Error reading the file: " ++ e.cause.message

def loadProgram (files : Files) (path : String) : Except LoadError String :=
  match files.readText path with
  | .ok text => .ok (instructionsOf text)
  | .error cause => .error { path, cause }

end Brainfuck
