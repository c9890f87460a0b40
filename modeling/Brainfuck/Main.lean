import Brainfuck.CommandLine.Report

/-!
# The command

Reads the environment and the files that the arguments lead to, and runs the
program against the clock of the system.
-/

namespace Brainfuck

/-- The number the system has for a failure; some calls report it with a minus sign. -/
def failureNumber (code : UInt32) : Nat :=
  code.toInt32.toInt.natAbs

/-- The number and the description of a failure. -/
def failureOf : IO.Error → Nat × String
  | .alreadyExists _ n d | .invalidArgument _ n d | .permissionDenied _ n d
  | .resourceExhausted _ n d | .inappropriateType _ n d | .noSuchThing _ n d => (failureNumber n, d)
  | .otherError n d | .resourceBusy n d | .resourceVanished n d | .unsupportedOperation n d
  | .hardwareFault n d | .unsatisfiedConstraints n d | .illegalOperation n d | .protocolError n d
  | .timeExpired n d => (failureNumber n, d)
  | .interrupted _ n d | .noFileOrDirectory _ n d => (failureNumber n, d)
  | .unexpectedEof => (0, "unexpected end of file")
  | .userError d => (0, d)

/-- The cause with a number. -/
def ReadError.ofFailure : Nat × String → ReadError
  | (2, _) => noSuchFile
  | (20, _) => notDirectory
  | (21, _) => isDirectory
  | (36, _) => nameTooLong
  | (number, description) => system description number

def readSystemFile (path : String) : IO (Except ReadError ByteArray) := do
  if path.toList.contains '\x00' then
    return .error .nulInName
  try
    return .ok (← IO.FS.readBinFile path)
  catch e =>
    return .error (.ofFailure (failureOf e))

def readSystemFiles (paths : List String) : IO Files := do
  let contents ← paths.mapM fun path => return (path, ← readSystemFile path)
  return fun path => (contents.lookup path).getD (.error .noSuchFile)

def consultedVariables : List String :=
  Setting.all.map Setting.envName ++ ["TAPEBF_CONFIG", "XDG_CONFIG_HOME", "HOME"]

def readSystemEnvironment : IO Environment := do
  let values ← consultedVariables.mapM fun name => return (name, ← IO.getEnv name)
  return fun name => (values.lookup name).join

/-- How many steps are taken between two looks at the clock. -/
def stepsPerLook : Nat :=
  4096

/-- Runs a job to its end, or until the clock is at the deadline. -/
partial def Job.pursue (j : Job) (deadline : Option (Nat × Nat)) (p : Progress) : IO Outcome := do
  match p with
  | .ended e => return .ended e
  | .running r =>
    if let some (time, milliseconds) := deadline then
      if time ≤ (← IO.monoMsNow) then
        return .timedOut milliseconds r.record
    j.pursue deadline (j.advance stepsPerLook (.running r))

def Invocation.perform (i : Invocation) (name : String) : IO Report := do
  let environment ← readSystemEnvironment
  let configHome := environment.configHome?
  let files ← readSystemFiles (i.file.toList ++ (configPath? environment configHome).toList)
  let style := if ← (← IO.getStderr).isTty then Style.coloured else Style.plain
  match i.job { name, environment, files, configHome, style } with
  | .error report => return report
  | .ok j =>
    let now ← IO.monoMsNow
    let deadline := j.settings.timeout.map fun milliseconds => (now + milliseconds, milliseconds)
    return (← j.pursue deadline j.start).report style name j.program

end Brainfuck

open Brainfuck in
/-- The command: its exit code is `2` for a command line that is refused. -/
def main (args : List String) : IO UInt32 := do
  let name := (← IO.appPath).toString
  match Invocation.ofWords? args with
  | none =>
    IO.eprint (usage name)
    return 2
  | some i =>
    let report ← i.perform name
    IO.print report.stdout
    IO.eprint report.stderr
    return report.exitCode.toUInt32
