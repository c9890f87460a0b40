import Brainfuck.Machine
import Brainfuck.Text.Decimal

/-!
# Why a run ends without a result

The causes that end a run early, what is said of each, and the place in the
program it points at.
-/

namespace Brainfuck

inductive RunError where
  /-- A bracket without partner. -/
  | unmatched (bracket : Unmatched)
  /-- As many steps were taken as are allowed. -/
  | stepLimitExceeded (limit : Nat)
  /-- The run was called off. -/
  | cancelled
  /-- The record of the step at `place` could not be written. -/
  | trace (place : Nat) (fault : String)
deriving DecidableEq

def Bracket.quoted (b : Bracket) : String :=
  "'" ++ b.symbol.toString ++ "'"

namespace RunError

/-- The place in the program that the cause points at, if there is one. -/
def place? : RunError → Option Nat
  | unmatched u => some u.place
  | trace place _ => some place
  | stepLimitExceeded _ => none
  | cancelled => none

def message : RunError → String
  | unmatched u =>
    "Unmatched bracket " ++ u.bracket.quoted ++ " at instruction " ++ Text.decimal u.place
  | stepLimitExceeded limit =>
    "Execution aborted: step limit exceeded (" ++ Text.decimal limit ++ ")"
  | cancelled => "Execution aborted: cancelled"
  | trace place fault =>
    "Failed to write trace at instruction " ++ Text.decimal place ++ ": " ++ fault

end RunError

end Brainfuck
