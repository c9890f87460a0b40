import Brainfuck.RunError
import Brainfuck.Sink
import Brainfuck.Trace

/-!
# Runs

A run takes one step after another until it ends. Before each step it looks, in
this order, whether the text is at its end, whether it was called off, and
whether it may take no more steps. A step that succeeds is recorded; one that
fails on a bracket is not.

`Progress.advance` takes a given number of steps. A run that ends does so after
some number of them, and further ones change nothing.
-/

namespace Brainfuck

/-- What may end a run from outside. -/
structure Controls where
  /-- How many steps may be taken, if that is bounded. -/
  maxSteps : Option Nat
  /-- Whether the run is called off, seen from the number of steps taken and the record of
  them. -/
  cancelled : Nat → String → Bool

def Controls.none : Controls :=
  { maxSteps := .none, cancelled := fun _ _ => false }

structure Run where
  /-- The number of steps taken. -/
  steps : Nat
  state : State
  /-- Where the steps are recorded, if they are. -/
  sink : Option Sink
deriving DecidableEq

structure Ending where
  /-- All that was written, or the cause that ended the run. -/
  result : Except RunError String
  /-- The record of the steps. -/
  sink : Option Sink

inductive Progress where
  | running (run : Run)
  | ended (ending : Ending)

namespace Run

/-- The record of the steps taken; empty when they are not recorded. -/
def record (r : Run) : String :=
  match r.sink with
  | none => ""
  | some sink => sink.offered

/-- Why the run may not take another step. -/
def refusal? (controls : Controls) (r : Run) : Option RunError :=
  if controls.cancelled r.steps r.record then
    some .cancelled
  else
    match controls.maxSteps with
    | none => none
    | some limit => if limit ≤ r.steps then some (.stepLimitExceeded limit) else none

/-- The run after the character `symbol` has done `action`. -/
def complete (r : Run) (symbol : Char) (action : Action) : Progress :=
  match r with
  | { steps, state, sink := none } =>
    .running { steps := steps + 1, state := state.perform action, sink := none }
  | { steps, state, sink := some sink } =>
    let ip := state.ip
    let before := state.tape
    let state := state.perform action
    let sink := sink.write (Row.ofStep steps ip before state.tape symbol action).render
    if sink.isFull then
      .ended { result := .error (.trace ip sink.fault), sink := some sink }
    else
      .running { steps := steps + 1, state, sink := some sink }

/-- One step, or the end of the run. -/
def next (code : Code) (controls : Controls) (r : Run) : Progress :=
  match code.text[r.state.ip]? with
  | none => .ended { result := r.state.finish.mapError .unmatched, sink := r.sink }
  | some symbol =>
    match r.refusal? controls with
    | some e => .ended { result := .error e, sink := r.sink }
    | none =>
      match r.state.action code symbol with
      | .error u => .ended { result := .error (.unmatched u), sink := r.sink }
      | .ok action => r.complete symbol action

end Run

namespace Progress

/-- A run from its start: the header of the record is written first. -/
def start (state : State) : Option Sink → Progress
  | none => .running { steps := 0, state, sink := none }
  | some sink =>
    let sink := sink.write Row.header
    if sink.isFull then
      .ended { result := .error (.trace 0 sink.fault), sink := some sink }
    else
      .running { steps := 0, state, sink := some sink }

/-- Takes `n` steps, or fewer when the run ends before. -/
def advance (code : Code) (controls : Controls) : Nat → Progress → Progress
  | 0, p => p
  | _ + 1, .ended e => .ended e
  | n + 1, .running r => advance code controls n (r.next code controls)

def ending? : Progress → Option Ending
  | .running _ => none
  | .ended e => some e

/-! ## Taking steps -/

section
variable (code : Code) (controls : Controls)

@[simp] theorem advance_zero (p : Progress) : advance code controls 0 p = p := by
  cases p <;> rfl

@[simp] theorem advance_ended (n : Nat) (e : Ending) :
    advance code controls n (.ended e) = .ended e := by
  cases n <;> rfl

@[simp] theorem advance_succ_running (n : Nat) (r : Run) :
    advance code controls (n + 1) (.running r) =
      advance code controls n (r.next code controls) :=
  rfl

theorem advance_add (m n : Nat) (p : Progress) :
    advance code controls (m + n) p = advance code controls n (advance code controls m p) := by
  induction m generalizing p with
  | zero => simp
  | succ m ih =>
    cases p with
    | ended e => simp
    | running r =>
      rw [Nat.succ_add, advance_succ_running, advance_succ_running, ih]

/-- A run that has ended after `m` steps has ended alike after any larger number. -/
theorem advance_mono {m n : Nat} (h : m ≤ n) {p : Progress} {e : Ending}
    (he : advance code controls m p = .ended e) : advance code controls n p = .ended e := by
  obtain ⟨k, rfl⟩ := Nat.exists_eq_add_of_le h
  rw [advance_add, he, advance_ended]

end

end Progress

end Brainfuck
