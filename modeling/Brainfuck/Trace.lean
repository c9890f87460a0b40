import Brainfuck.Machine
import Brainfuck.Text.Decimal
import Brainfuck.Text.Quoted

/-!
# The record of a run

A table with a header of two lines and a row for every step: the number of the
step, the place of the character, the pointer and the cell under it before the
step, the character, and what it did. The columns of numbers have a least width
and grow with longer numbers.
-/

namespace Brainfuck

/-- What an action did, in words. `before` and `after` are the tapes around it. -/
def Action.describe (before after : Tape) : Action → String
  | moveRight => "Moved pointer head to index " ++ Text.decimal after.pointer
  | moveLeft =>
    if before.pointer = 0 then
      "Grew tape at the head; pointer stays at index 0"
    else
      "Moved pointer head to index " ++ Text.decimal after.pointer
  | increment =>
    "Increment cell[" ++ Text.decimal before.pointer ++ "] from " ++ Text.decimal before.current
      ++ " to " ++ Text.decimal after.current
  | decrement =>
    "Decrement cell[" ++ Text.decimal before.pointer ++ "] from " ++ Text.decimal before.current
      ++ " to " ++ Text.decimal after.current
  | write c => "Output " ++ Text.quoted c
  | read c =>
    "Read " ++ Text.quoted c ++ " -> cell[" ++ Text.decimal before.pointer ++ "] = "
      ++ Text.decimal after.current
  | readNothing => "Input exhausted; cell unchanged"
  | enterLoop => "Enter loop (cell != 0)"
  | jumpForward close => "Cell is 0; jump forward to matching ']' at IP " ++ Text.decimal close
  | startSkip => "Cell is 0; skip loop body"
  | jumpBack start => "Cell != 0; jump back to matching '[' at IP " ++ Text.decimal start
  | exitLoop => "Exit loop (cell is 0)"
  | ignore => "Ignored"
  | skip depth => "Skip (depth " ++ Text.decimal depth ++ ")"
  | endSkip origin => "Found ']' matching '[' at IP " ++ Text.decimal origin

structure Row where
  step : Nat
  ip : Nat
  pointer : Nat
  cell : Nat
  symbol : Char
  action : String
deriving DecidableEq

namespace Row

/-- The row of one step, from the tapes before and after it. -/
def ofStep (step ip : Nat) (before after : Tape) (symbol : Char) (action : Action) : Row where
  step := step
  ip := ip
  pointer := before.pointer
  cell := before.current
  symbol := symbol
  action := action.describe before after

/-- A number, followed by as many spaces as it lacks to the width. -/
def column (width n : Nat) : String :=
  let digits := Text.decimal n
  digits ++ String.ofList (List.replicate (width - digits.length) ' ')

def render (r : Row) : String :=
  column 4 r.step ++ " | " ++ column 3 r.ip ++ " | " ++ column 3 r.pointer ++ " | "
    ++ column 4 r.cell ++ " |  " ++ r.symbol.toString ++ "    | " ++ r.action ++ "\n"

/-- The two lines above the rows. -/
def header : String :=
  "STEP | IP  | PTR | CELL | INSTR | ACTION\n"
    ++ "-----+-----+-----+------+-------+------------------------------------------------\n"

end Row

end Brainfuck
