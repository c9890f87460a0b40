import Brainfuck.Settings.Basic

/-!
# Arguments

What the words of a command line ask for: the program file, the input, settings
and switches. Options may stand before, between and behind the file and the
input, and each may be given once. After the word `--` every word is a file or
an input. A word that starts with a hyphen and is no option is an input where
an input is due, and is refused elsewhere.
-/

namespace Brainfuck

inductive Switch where
  | trace
  | help
deriving DecidableEq

def Switch.ofLong? : List Char → Option Switch
  | ['t', 'r', 'a', 'c', 'e'] => some trace
  | ['h', 'e', 'l', 'p'] => some help
  | _ => none

def Switch.ofShort? : Char → Option Switch
  | 't' => some trace
  | 'h' => some help
  | _ => none

namespace Setting

def all : List Setting :=
  [tapeCells, cellWidth, loopStrategy, maxSteps, timeout]

def option : Setting → String
  | tapeCells => "tape-cells"
  | cellWidth => "cell-width"
  | loopStrategy => "loop-strategy"
  | maxSteps => "max-steps"
  | timeout => "timeout"

def ofOption? (name : List Char) : Option Setting :=
  all.find? fun s => decide (s.option.toList = name)

end Setting

/-- The layer `l` with a setting read from the value of its option. Nothing is read when the
layer has the setting already, or when the value is not one of its values to the letter. -/
def Layer.setOption? (l : Layer) (setting : Setting) (value : List Char) : Option Layer :=
  match setting with
  | .tapeCells =>
    if l.tapeCells.isSome then none
    else (Text.count? value).map fun n => { l with tapeCells := some n }
  | .cellWidth =>
    if l.cellWidth.isSome then none
    else (Named.ofName? value).map fun w => { l with cellWidth := some w }
  | .loopStrategy =>
    if l.loopStrategy.isSome then none
    else (Named.ofName? value).map fun s => { l with loopStrategy := some s }
  | .maxSteps =>
    if l.maxSteps.isSome then none
    else (Text.count? value).map fun n => { l with maxSteps := some n }
  | .timeout =>
    if l.timeout.isSome then none
    else (Text.count? value).map fun n => { l with timeout := some n }

/-- What a word is before its place is considered. -/
inductive Word where
  /-- The word `--`. -/
  | separator
  /-- The option of a setting, with the value written behind an equals sign, if one is. -/
  | setting (s : Setting) (value : Option (List Char))
  /-- One switch by its long name, or several by their letters. -/
  | switches (list : List Switch)
  /-- A switch with a value, which it does not take. -/
  | switchWithValue
  /-- Starts with a hyphen and is no option. -/
  | unknown
  /-- Any other word. -/
  | plain
deriving DecidableEq

namespace Word

def valueOf (text : List Char) : Option (List Char) :=
  (text.dropWhile (· ≠ '=')).tail?

/-- What a word with two hyphens is, from what follows these. -/
def ofLong (text : List Char) : Word :=
  let name := text.takeWhile (· ≠ '=')
  let value := valueOf text
  match Setting.ofOption? name with
  | some s => setting s value
  | none =>
    match Switch.ofLong? name, value with
    | some s, none => switches [s]
    | some _, some _ => switchWithValue
    | none, _ => unknown

/-- What a word with one hyphen is, from the letters that follow it. -/
def ofShorts (letters : List Char) : Word :=
  match letters.mapM Switch.ofShort? with
  | some list => switches list
  | none => unknown

def ofChars : List Char → Word
  | ['-'] => plain
  | ['-', '-'] => separator
  | '-' :: '-' :: text => ofLong text
  | '-' :: letters => ofShorts letters
  | _ => plain

end Word

structure Invocation where
  trace : Bool
  help : Bool
  flags : Layer
  file : Option String
  input : Option String
deriving DecidableEq

namespace Invocation

def empty : Invocation :=
  { trace := false, help := false, flags := Layer.empty, file := none, input := none }

/-- Takes a word for the file or else for the input. The file must not be empty. -/
def addPlain? (i : Invocation) (word : String) : Option Invocation :=
  match i.file, i.input with
  | none, _ => if word = "" then none else some { i with file := some word }
  | some _, none => some { i with input := some word }
  | some _, some _ => none

def addSwitch? (i : Invocation) : Switch → Option Invocation
  | .trace => if i.trace then none else some { i with trace := true }
  | .help => if i.help then none else some { i with help := true }

def addSetting? (i : Invocation) (setting : Setting) (value : List Char) : Option Invocation :=
  (i.flags.setOption? setting value).map fun flags => { i with flags }

/-- Takes in the words of a command line one after the other. -/
def extend? (i : Invocation) : List String → Option Invocation
  | [] => some i
  | word :: rest =>
    match Word.ofChars word.toList with
    | .separator => rest.foldlM addPlain? i
    | .setting s (some value) => (i.addSetting? s value).bind fun i => i.extend? rest
    | .setting s none =>
      match rest with
      | [] => none
      | value :: rest => (i.addSetting? s value.toList).bind fun i => i.extend? rest
    | .switches list => (list.foldlM addSwitch? i).bind fun i => i.extend? rest
    | .switchWithValue => none
    | .unknown =>
      if i.file.isSome then (i.addPlain? word).bind fun i => i.extend? rest else none
    | .plain => (i.addPlain? word).bind fun i => i.extend? rest

/-- What the words of a command line ask for; nothing when they are refused. -/
def ofWords? (words : List String) : Option Invocation :=
  empty.extend? words

end Invocation

end Brainfuck
