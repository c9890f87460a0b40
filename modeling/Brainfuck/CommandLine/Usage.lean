/-!
# The help text
-/

namespace Brainfuck

def usageLines (name : String) : List String :=
  ["Usage:",
   "  " ++ name ++ " [OPTIONS] <FILE> [INPUT]",
   "",
   "Runs the Brainfuck program in FILE. Characters other than ><+-.,[] are",
   "ignored. INPUT (default: empty) is consumed one character per `,`; once it",
   "runs out `,` leaves the current cell unchanged.",
   "",
   "Options:",
   "  --trace,  -t            Print a step-by-step table of operations to stderr",
   "  --max-steps <N>         Abort after N steps (fallback TAPEBF_MAX_STEPS; default unlimited)",
   "  --timeout <MS>          Wall-clock timeout in milliseconds"
     ++ " (fallback TAPEBF_TIMEOUT_MS; default none)",
   "  --cell-width <WIDTH>    byte | word | wide (fallback TAPEBF_CELL_WIDTH; default byte)",
   "  --tape-cells <N>        Cells allocated up front"
     ++ " (fallback TAPEBF_TAPE_CELLS; default 30000, max 16777216)",
   "  --loop-strategy <S>     scan | jump-table (fallback TAPEBF_LOOP_STRATEGY; default scan)",
   "  --help,   -h            Show this help",
   "",
   "Settings not given as flags or environment variables are read from the",
   "[engine] section of $XDG_CONFIG_HOME/tapebf.toml (or the file named by",
   "TAPEBF_CONFIG).",
   "",
   "Examples:",
   "    " ++ name ++ " ./hello.bf",
   "    " ++ name ++ " ./echo.bf \"some input\"",
   ""]

def usage (name : String) : String :=
  String.join ((usageLines name).map fun line => line ++ "\n")

end Brainfuck
