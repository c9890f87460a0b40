import Brainfuck.Files.Basic
import Brainfuck.Settings.Basic
import Brainfuck.Text.Blank

/-!
# Settings from the environment

Each setting has a variable of its own. Blanks around its value do not count.
By convention the environment also tells where configurations are kept.
-/

namespace Brainfuck

/-- The value of each variable that is set. -/
abbrev Environment := String → Option String

def Setting.envName : Setting → String
  | tapeCells => "TAPEBF_TAPE_CELLS"
  | cellWidth => "TAPEBF_CELL_WIDTH"
  | loopStrategy => "TAPEBF_LOOP_STRATEGY"
  | maxSteps => "TAPEBF_MAX_STEPS"
  | timeout => "TAPEBF_TIMEOUT_MS"

def Layer.ofEnvironment (env : Environment) : Layer :=
  Layer.ofTexts fun s => (env s.envName).map fun value => Text.trim value.toList

/-- The directory for configurations, where a command is not told another: by default it is
`.config` in the home directory. -/
def Environment.configHome? (env : Environment) : Option String :=
  match env "XDG_CONFIG_HOME" with
  | some directory => some directory
  | none => (env "HOME").map fun home => joinPath home ".config"

end Brainfuck
