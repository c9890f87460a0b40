import Brainfuck.Run

/-!
# Engines

An engine is what a program is run on: the size of the tape at the start, the
width of its cells, how loops are left out, and a limit on the steps. Every
execution starts afresh, so an engine keeps nothing between two of them.
-/

namespace Brainfuck

structure Engine where
  tapeCells : Nat
  cellWidth : CellWidth
  loopStrategy : LoopStrategy
  maxSteps : Option Nat
deriving DecidableEq

namespace Engine

/-- The engine that is used when nothing else is asked for. -/
def standard : Engine :=
  { tapeCells := 30000, cellWidth := .byte, loopStrategy := .scan, maxSteps := none }

def code (e : Engine) (program : String) : Code :=
  Code.ofList e.loopStrategy program.toList

def initial (e : Engine) (input : String) : State :=
  State.initial (Tape.new e.tapeCells e.cellWidth) input.toList

/-- The controls of an execution: a limit that comes with it goes before the engine's own. -/
def controls (e : Engine) (given : Controls) : Controls :=
  { given with maxSteps := given.maxSteps.or e.maxSteps }

/-- The execution of a program after at most `n` steps. -/
def progress (n : Nat) (e : Engine) (given : Controls) (sink : Option Sink)
    (program input : String) : Progress :=
  Progress.advance (e.code program) (e.controls given) n
    (Progress.start (e.initial input) sink)

/-- What the execution of a program comes to, if it ends within `n` steps. -/
def execute (n : Nat) (e : Engine) (given : Controls) (sink : Option Sink)
    (program input : String) : Option Ending :=
  (e.progress n given sink program input).ending?

end Engine

end Brainfuck
