import Brainfuck.Files.Basic
import Brainfuck.Settings.ConfigText
import Brainfuck.Settings.Environment

/-!
# From the sources to the settings

What is given on the command line goes before the environment, and the
environment before the configuration file. The environment may say where that
file is; if not, it is in the directory `configHome` for configurations. A file
that cannot be read sets nothing.
-/

namespace Brainfuck

def configName : String :=
  "tapebf.toml"

def configPath? (env : Environment) (configHome : Option String) : Option String :=
  match env "TAPEBF_CONFIG" with
  | some path => some path
  | none => configHome.map fun directory => joinPath directory configName

def Layer.ofConfigFile (files : Files) (env : Environment)
    (configHome : Option String := env.configHome?) : Layer :=
  match configPath? env configHome with
  | none => Layer.empty
  | some path =>
    match files.readText path with
    | .ok text => Layer.ofConfig text
    | .error _ => Layer.empty

/-- The settings with the layer `flags` on top. -/
def Settings.resolve (files : Files) (env : Environment) (flags : Layer)
    (configHome : Option String := env.configHome?) : Settings :=
  ((flags.orElse (Layer.ofEnvironment env)).orElse (Layer.ofConfigFile files env configHome)).settings

end Brainfuck
