import Brainfuck.CommandLine.Arguments
import Brainfuck.CommandLine.Usage
import Brainfuck.Diagnostic
import Brainfuck.Files.Program
import Brainfuck.Settings.Resolve

/-!
# What a command line reports

A command line ends with an exit code and a text on each of two streams. Help
comes before everything else, then a missing file, then a file that cannot be
loaded. The program is run only after these; its output goes to the first
stream, and the record of its steps and the cause of a failure to the second.

A run with a time limit is stopped by a clock. Here the clock is the number of
steps that are taken in a millisecond.
-/

namespace Brainfuck

structure Report where
  exitCode : Nat
  stdout : String
  stderr : String
deriving DecidableEq

/-- What a command sees of the world. -/
structure Surroundings where
  /-- The name by which the command was called. -/
  name : String
  environment : Environment
  files : Files
  /-- The directory for configurations, where there is one. -/
  configHome : Option String := environment.configHome?
  /-- How a diagnostic is shown on the second stream: in colour when that is a terminal. -/
  style : Style := .plain

structure Job where
  program : String
  input : String
  settings : Settings
  traced : Bool

inductive Outcome where
  | ended (ending : Ending)
  /-- Stopped by the clock, with the record of the steps up to then. -/
  | timedOut (milliseconds : Nat) (record : String)

namespace Invocation

/-- The job that is asked for, or what is reported when there is none. -/
def job (i : Invocation) (s : Surroundings) : Except Report Job :=
  if i.help then
    .error { exitCode := 0, stdout := "", stderr := usage s.name }
  else
    match i.file with
    | none => .error { exitCode := 2, stdout := "", stderr := usage s.name }
    | some path =>
      match loadProgram s.files path with
      | .error e =>
        .error { exitCode := 1, stdout := "", stderr := s.name ++ ": " ++ e.message ++ "\n" }
      | .ok program =>
        .ok {
          program
          input := i.input.getD ""
          settings := Settings.resolve s.files s.environment i.flags s.configHome
          traced := i.trace }

end Invocation

namespace Job

def start (j : Job) : Progress :=
  j.settings.engine.progress 0 Controls.none (if j.traced then some Sink.unbounded else none)
    j.program j.input

def advance (n : Nat) (j : Job) (p : Progress) : Progress :=
  let e := j.settings.engine
  p.advance (e.code j.program) (e.controls Controls.none) n

end Job

namespace Outcome

def record : Outcome → String
  | ended e => (e.sink.map Sink.offered).getD ""
  | timedOut _ record => record

/-- What is said of a cause that ended the run of `program`. -/
def complaint (style : Style) (name program : String) : RunError → String
  | .cancelled => "Execution aborted: interrupted\n"
  | .stepLimitExceeded limit => (RunError.stepLimitExceeded limit).message ++ "\n"
  | .unmatched u => (RunError.unmatched u).diagnostic style (some name) program
  | .trace place fault => (RunError.trace place fault).diagnostic style (some name) program

/-- What is reported of the run of `program` by the command `name`. -/
def report (style : Style) (name program : String) (o : Outcome) : Report :=
  match o with
  | ended { result := .ok output, .. } =>
    { exitCode := 0, stdout := output ++ "\n", stderr := o.record }
  | ended { result := .error e, .. } =>
    { exitCode := 1, stdout := "", stderr := o.record ++ complaint style name program e }
  | timedOut milliseconds _ =>
    { exitCode := 1
      stdout := ""
      stderr := o.record ++ "Execution aborted: wall-clock timeout exceeded ("
        ++ Text.decimal milliseconds ++ " ms)\n" }

end Outcome

/-- How the run of a job comes to its end when `pace` steps are taken in a millisecond. A run
without time limit is given `n` steps; there is no outcome when it does not end within these. -/
def Job.outcome? (n pace : Nat) (j : Job) : Option Outcome :=
  match j.settings.timeout with
  | none => (j.advance n j.start).ending?.map .ended
  | some milliseconds =>
    match j.advance (milliseconds * pace) j.start with
    | .ended e => some (.ended e)
    | .running r => some (.timedOut milliseconds r.record)

/-- What is reported of a command line, if its run ends as `Job.outcome?` says. -/
def Invocation.report? (n pace : Nat) (i : Invocation) (s : Surroundings) : Option Report :=
  match i.job s with
  | .error r => some r
  | .ok j => (j.outcome? n pace).map (Outcome.report s.style s.name j.program)

end Brainfuck
