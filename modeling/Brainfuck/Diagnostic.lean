import Brainfuck.RunError

/-!
# Diagnostics

What a person is shown when a run ends early: a headline and, when the cause
points at a place in the program, the characters around that place with a caret
under the one meant.
-/

namespace Brainfuck

inductive Style where
  | plain
  | coloured
deriving DecidableEq

namespace Style

/-- A text between a terminal sequence and the one that ends it. -/
def paint (codes text : String) : String :=
  "\x1b[" ++ codes ++ "m" ++ text ++ "\x1b[0m"

def headline (text : String) : Style → String
  | plain => text
  | coloured => paint "1" text

/-- A caret with the spaces before it: bold and red when there is colour. -/
def caret (text : String) : Style → String
  | plain => text
  | coloured => paint "1;31" text

end Style

namespace Diagnostic

/-- How many characters are shown on either side of a place. -/
def reach : Nat :=
  32

def window (program : List Char) (place : Nat) : List Char :=
  (program.take (place + reach + 1)).drop (place - reach)

def pointer (place : Nat) : List Char :=
  List.replicate (min place reach) ' ' ++ ['^']

/-- A headline with the number of a place, the window around it, and a caret. -/
def atPlace (style : Style) (title program : String) (place : Nat) : String :=
  style.headline (title ++ " at instruction " ++ Text.decimal place) ++ "\n  "
    ++ String.ofList (window program.toList place) ++ "\n  "
    ++ style.caret (String.ofList (pointer place)) ++ "\n"

end Diagnostic

namespace RunError

def title : RunError → String
  | unmatched u => "Runtime error: unmatched bracket " ++ u.bracket.quoted
  | trace _ fault => "Trace error: " ++ fault
  | stepLimitExceeded limit => message (stepLimitExceeded limit)
  | cancelled => message cancelled

/-- The diagnostic of a cause that ended a run of `program`, after the name of the command
that ran it, if there is one. -/
def diagnostic (style : Style) (name : Option String) (program : String) (e : RunError) : String :=
  let title := match name with
    | some name => name ++ ": " ++ e.title
    | none => e.title
  match e.place? with
  | some place => Diagnostic.atPlace style title program place
  | none => title ++ "\n"

end RunError

end Brainfuck
