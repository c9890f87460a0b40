/-!
# Instructions

The language has eight instructions of one character each. Any other character
is a remark: it takes up a place in the text and does nothing.
-/

namespace Brainfuck

inductive Instruction where
  | moveRight
  | moveLeft
  | increment
  | decrement
  | write
  | read
  | openLoop
  | closeLoop
deriving DecidableEq

namespace Instruction

def symbol : Instruction → Char
  | moveRight => '>'
  | moveLeft => '<'
  | increment => '+'
  | decrement => '-'
  | write => '.'
  | read => ','
  | openLoop => '['
  | closeLoop => ']'

def ofChar? : Char → Option Instruction
  | '>' => some moveRight
  | '<' => some moveLeft
  | '+' => some increment
  | '-' => some decrement
  | '.' => some write
  | ',' => some read
  | '[' => some openLoop
  | ']' => some closeLoop
  | _ => none

@[simp] theorem ofChar?_symbol (i : Instruction) : ofChar? i.symbol = some i := by
  cases i <;> rfl

theorem ofChar?_eq_some_iff {c : Char} {i : Instruction} : ofChar? c = some i ↔ c = i.symbol := by
  constructor
  · intro h
    unfold ofChar? at h
    split at h <;> cases h <;> rfl
  · rintro rfl
    exact ofChar?_symbol i

end Instruction

def isInstruction (c : Char) : Bool :=
  (Instruction.ofChar? c).isSome

/-- The instructions of a text, without its remarks. -/
def instructionsOf (text : String) : String :=
  String.ofList (text.toList.filter isInstruction)

theorem instructionsOf_instructionsOf (text : String) :
    instructionsOf (instructionsOf text) = instructionsOf text := by
  simp [instructionsOf, List.filter_filter]

end Brainfuck
