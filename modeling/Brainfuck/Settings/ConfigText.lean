import Brainfuck.Settings.Basic
import Brainfuck.Text.Blank
import Brainfuck.Text.Lines

/-!
# Settings from a configuration text

A configuration text has one entry a line. Blanks around a line do not count;
empty lines and lines that start with `#` say nothing. A line in square brackets
starts a section. In the sections called `engine`, a line with an equals sign
gives the key before the first such sign the value after it, blanks around
either left out, and one pair of double quotes around the value left out too.

The last value of a key is the one that is read.
-/

namespace Brainfuck

def Setting.key : Setting → String
  | tapeCells => "tape_cells"
  | cellWidth => "cell_width"
  | loopStrategy => "loop_strategy"
  | maxSteps => "max_steps"
  | timeout => "timeout_ms"

inductive ConfigLine where
  | nothing
  | header (name : List Char)
  | assignment (key value : List Char)
deriving DecidableEq

namespace ConfigLine

/-- A text without one pair of double quotes around it. -/
def unquote (text : List Char) : List Char :=
  if 2 ≤ text.length ∧ text.head? = some '\x22' ∧ text.getLast? = some '\x22' then
    text.tail.dropLast
  else
    text

/-- A text cut at its first equals sign, which is in neither part. -/
def cutAtEquals? (text : List Char) : Option (List Char × List Char) :=
  match text.dropWhile (· ≠ '=') with
  | [] => none
  | _ :: value => some (text.takeWhile (· ≠ '='), value)

/-- What a line without blanks around it says. -/
def ofTrimmed (line : List Char) : ConfigLine :=
  if line = [] ∨ line.head? = some '#' then
    nothing
  else if line.head? = some '[' ∧ line.getLast? = some ']' then
    header (Text.trim line.tail.dropLast)
  else
    match cutAtEquals? line with
    | none => nothing
    | some (key, value) => assignment (Text.trim key) (unquote (Text.trim value))

def ofChars (line : List Char) : ConfigLine :=
  ofTrimmed (Text.trim line)

end ConfigLine

structure ConfigReading where
  /-- Whether the section that is being read is called `engine`. -/
  inEngine : Bool
  /-- The assignments in sections of that name, last first. -/
  assignments : List (List Char × List Char)

namespace ConfigReading

def start : ConfigReading :=
  { inEngine := false, assignments := [] }

def next (r : ConfigReading) : ConfigLine → ConfigReading
  | .nothing => r
  | .header name => { r with inEngine := decide (name = "engine".toList) }
  | .assignment key value =>
    if r.inEngine then { r with assignments := (key, value) :: r.assignments } else r

def ofText (text : List Char) : ConfigReading :=
  ((Text.lines text).map ConfigLine.ofChars).foldl next start

def value? (r : ConfigReading) (key : List Char) : Option (List Char) :=
  r.assignments.lookup key

end ConfigReading

def Layer.ofConfig (text : String) : Layer :=
  let reading := ConfigReading.ofText text.toList
  Layer.ofTexts fun s => reading.value? s.key.toList

end Brainfuck
