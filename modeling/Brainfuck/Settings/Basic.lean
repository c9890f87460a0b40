import Brainfuck.Engine

/-!
# Settings and their layers

A command line is run with settings: the engine, and how long the run may take.
Each of several sources sets some of them and leaves others open. A source is a
layer; layers are laid over one another, and what no layer sets has a fixed
value.
-/

namespace Brainfuck

inductive Setting where
  | tapeCells
  | cellWidth
  | loopStrategy
  | maxSteps
  | timeout
deriving DecidableEq

structure Settings where
  engine : Engine
  /-- How many milliseconds the run may take, if that is bounded. -/
  timeout : Option Nat
deriving DecidableEq

/-- What one source sets. -/
structure Layer where
  tapeCells : Option Nat
  cellWidth : Option CellWidth
  loopStrategy : Option LoopStrategy
  maxSteps : Option Nat
  timeout : Option Nat
deriving DecidableEq

namespace Layer

def empty : Layer :=
  { tapeCells := none, cellWidth := none, loopStrategy := none, maxSteps := none, timeout := none }

/-- The layer `upper` laid over the layer `lower`, which shows where `upper` sets nothing. -/
def orElse (upper lower : Layer) : Layer where
  tapeCells := upper.tapeCells.or lower.tapeCells
  cellWidth := upper.cellWidth.or lower.cellWidth
  loopStrategy := upper.loopStrategy.or lower.loopStrategy
  maxSteps := upper.maxSteps.or lower.maxSteps
  timeout := upper.timeout.or lower.timeout

/-- The settings of a layer, with the standard engine below it. -/
def settings (l : Layer) : Settings where
  engine := {
    tapeCells := Tape.initialCells (l.tapeCells.getD Engine.standard.tapeCells)
    cellWidth := l.cellWidth.getD Engine.standard.cellWidth
    loopStrategy := l.loopStrategy.getD Engine.standard.loopStrategy
    maxSteps := l.maxSteps.or Engine.standard.maxSteps }
  timeout := l.timeout

/-- The layer read from a text for each setting. A text that does not stand for a value of its
setting sets nothing; the case of letters in a name does not matter. -/
def ofTexts (text : Setting → Option (List Char)) : Layer where
  tapeCells := (text .tapeCells).bind Text.count?
  cellWidth := (text .cellWidth).bind Named.ofFoldedName?
  loopStrategy := (text .loopStrategy).bind Named.ofFoldedName?
  maxSteps := (text .maxSteps).bind Text.count?
  timeout := (text .timeout).bind Text.count?

/-! ## Layers over layers -/

@[simp] theorem empty_orElse (l : Layer) : empty.orElse l = l := by
  simp [orElse, empty]

@[simp] theorem orElse_empty (l : Layer) : l.orElse empty = l := by
  simp [orElse, empty]

theorem orElse_assoc (a b c : Layer) : (a.orElse b).orElse c = a.orElse (b.orElse c) := by
  simp [orElse, Option.or_assoc]

end Layer

end Brainfuck
