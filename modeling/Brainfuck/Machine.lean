import Brainfuck.Brackets
import Brainfuck.Tape

/-!
# The machine

A machine walks along a text, one character at a time. It first settles what
the character does in the present state (`State.action`), which fails only on a
bracket without partner, and then does it (`State.perform`), which never fails.

An opening bracket with a zero cell leaves out its loop. Either the partner is
looked up in a table made before the run, and the machine goes on behind it, or
the machine passes over the characters of the loop one by one, counting how
deep it is in brackets, and does none of them.
-/

namespace Brainfuck

/-- How a loop that is left out finds its end. -/
inductive LoopStrategy where
  /-- Pass over the loop character by character. -/
  | scan
  /-- Match all brackets before the run. -/
  | jumpTable
deriving DecidableEq

instance : Named LoopStrategy where
  all := [.scan, .jumpTable]
  name
    | .scan => "scan"
    | .jumpTable => "jump-table"

structure Code where
  text : Array Char
  /-- The partners of the brackets, when they were matched before the run. -/
  jumps : Option Brackets

def Code.ofList (strategy : LoopStrategy) (text : List Char) : Code where
  text := text.toArray
  jumps :=
    match strategy with
    | .scan => none
    | .jumpTable => some (Brackets.ofList text)

inductive Bracket where
  | opening
  | closing
deriving DecidableEq

def Bracket.symbol : Bracket → Char
  | .opening => '['
  | .closing => ']'

/-- A bracket that has no partner, and its place in the text. -/
structure Unmatched where
  place : Nat
  bracket : Bracket
deriving DecidableEq

/-- Whether the machine does what it meets or passes over it. -/
inductive Mode where
  | running
  /-- Looking for the partner of the bracket at `origin`, `depth` brackets deep. -/
  | skipping (origin depth : Nat)
deriving DecidableEq

/-- The state of a machine between two characters. -/
structure State where
  /-- The place of the next character. -/
  ip : Nat
  tape : Tape
  /-- The places of the opening brackets of the loops that were entered, innermost first. -/
  loops : List Nat
  /-- The input that was not read yet. -/
  input : List Char
  /-- What was written so far. -/
  output : String
  mode : Mode
deriving DecidableEq

/-- What one character does. -/
inductive Action where
  | moveRight
  | moveLeft
  | increment
  | decrement
  | write (c : Char)
  | read (c : Char)
  | readNothing
  | enterLoop
  | jumpForward (close : Nat)
  | startSkip
  | jumpBack (start : Nat)
  | exitLoop
  | ignore
  | skip (depth : Nat)
  | endSkip (origin : Nat)
deriving DecidableEq

namespace State

def initial (tape : Tape) (input : List Char) : State :=
  { ip := 0, tape, loops := [], input, output := "", mode := .running }

/-- What a character does that is passed over, `depth` brackets deep. -/
def skipAction (origin depth : Nat) (c : Char) : Action :=
  match Instruction.ofChar? c with
  | some .openLoop => .skip (depth + 1)
  | some .closeLoop => if depth = 1 then .endSkip origin else .skip (depth - 1)
  | _ => .skip depth

def openAction (code : Code) (s : State) : Except Unmatched Action :=
  if s.tape.current ≠ 0 then
    .ok .enterLoop
  else
    match code.jumps with
    | none => .ok .startSkip
    | some brackets =>
      match brackets.partner? s.ip with
      | some close => .ok (.jumpForward close)
      | none => .error { place := s.ip, bracket := .opening }

def closeAction (s : State) : Except Unmatched Action :=
  match s.loops with
  | [] => .error { place := s.ip, bracket := .closing }
  | start :: _ => .ok (if s.tape.current ≠ 0 then .jumpBack start else .exitLoop)

/-- What an instruction does when it is not passed over. -/
def instructionAction (code : Code) (s : State) : Instruction → Except Unmatched Action
  | .moveRight => .ok .moveRight
  | .moveLeft => .ok .moveLeft
  | .increment => .ok .increment
  | .decrement => .ok .decrement
  | .write => .ok (.write (cellChar s.tape.current))
  | .read =>
    match s.input with
    | [] => .ok .readNothing
    | c :: _ => .ok (.read c)
  | .openLoop => s.openAction code
  | .closeLoop => s.closeAction

def action (code : Code) (s : State) (c : Char) : Except Unmatched Action :=
  match s.mode with
  | .skipping origin depth => .ok (skipAction origin depth c)
  | .running =>
    match Instruction.ofChar? c with
    | none => .ok .ignore
    | some i => s.instructionAction code i

/-- The state after an action, with the next character due. -/
def perform (s : State) : Action → State
  | .moveRight => { s with ip := s.ip + 1, tape := s.tape.moveRight }
  | .moveLeft => { s with ip := s.ip + 1, tape := s.tape.moveLeft }
  | .increment => { s with ip := s.ip + 1, tape := s.tape.increment }
  | .decrement => { s with ip := s.ip + 1, tape := s.tape.decrement }
  | .write c => { s with ip := s.ip + 1, output := s.output.push c }
  | .read c => { s with ip := s.ip + 1, tape := s.tape.set c.toNat, input := s.input.tail }
  | .readNothing => { s with ip := s.ip + 1 }
  | .enterLoop => { s with ip := s.ip + 1, loops := s.ip :: s.loops }
  | .jumpForward close => { s with ip := close + 1 }
  | .startSkip => { s with ip := s.ip + 1, mode := .skipping s.ip 1 }
  | .jumpBack start => { s with ip := start + 1 }
  | .exitLoop => { s with ip := s.ip + 1, loops := s.loops.tail }
  | .ignore => { s with ip := s.ip + 1 }
  | .skip depth =>
    match s.mode with
    | .running => { s with ip := s.ip + 1 }
    | .skipping origin _ => { s with ip := s.ip + 1, mode := .skipping origin depth }
  | .endSkip _ => { s with ip := s.ip + 1, mode := .running }

/-- What the machine has at the end of the text: its output, unless a loop is still open. The
loop that is being passed over comes first, then the innermost that was entered. -/
def finish (s : State) : Except Unmatched String :=
  match s.mode with
  | .skipping origin _ => .error { place := origin, bracket := .opening }
  | .running =>
    match s.loops with
    | start :: _ => .error { place := start, bracket := .opening }
    | [] => .ok s.output

end State

end Brainfuck
