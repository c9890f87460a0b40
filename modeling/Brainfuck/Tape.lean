import Brainfuck.Cell

/-!
# The tape

A row of cells that never runs out, with a pointer at one of them. The tape
starts with a number of zero cells and the pointer at the first. Moving past
the last cell appends a zero cell. Moving left of the first cell puts a zero
cell in front and leaves the pointer at index `0`, so that every cell already
there is one further to the right.

The cells are kept as seen from the pointer: those on its left, nearest first,
the one under it, and those on its right. Cells that were set aside at the
start and that the pointer has not reached are zero; only their number is kept.
-/

namespace Brainfuck

structure Tape where
  width : CellWidth
  /-- The cells before the pointer, nearest first. -/
  left : List Nat
  /-- The cell under the pointer. -/
  current : Nat
  /-- The cells after the pointer up to the furthest one it has reached, nearest first. -/
  right : List Nat
  /-- How many more zero cells the tape has after those. -/
  spare : Nat
deriving DecidableEq

namespace Tape

/-- The most cells that a tape starts with. -/
def maxInitialCells : Nat :=
  16777216

/-- The number of cells a tape starts with when `n` are asked for. -/
def initialCells (n : Nat) : Nat :=
  max 1 (min n maxInitialCells)

/-- A tape of zero cells with the pointer at the first. -/
def new (cells : Nat) (width : CellWidth) : Tape :=
  { width, left := [], current := 0, right := [], spare := initialCells cells - 1 }

def pointer (t : Tape) : Nat :=
  t.left.length

def length (t : Tape) : Nat :=
  t.left.length + 1 + t.right.length + t.spare

def isEmpty (t : Tape) : Bool :=
  t.length == 0

/-- All cells, from the first to the last. -/
def toList (t : Tape) : List Nat :=
  t.left.reverse ++ t.current :: (t.right ++ List.replicate t.spare 0)

/-- Stores `v`, reduced to the width of a cell, under the pointer. -/
def set (t : Tape) (v : Nat) : Tape :=
  { t with current := t.width.reduce v }

def increment (t : Tape) : Tape :=
  { t with current := t.width.succ t.current }

def decrement (t : Tape) : Tape :=
  { t with current := t.width.pred t.current }

def moveRight (t : Tape) : Tape :=
  match t.right with
  | [] => { t with left := t.current :: t.left, current := 0, spare := t.spare - 1 }
  | v :: right => { t with left := t.current :: t.left, current := v, right }

def moveLeft (t : Tape) : Tape :=
  match t.left with
  | [] => { t with current := 0, right := t.current :: t.right }
  | v :: left => { t with left, current := v, right := t.current :: t.right }

/-! ## What the operations do to the list of cells -/

@[simp] theorem length_toList (t : Tape) : t.toList.length = t.length := by
  simp [toList, length]; omega

theorem pointer_lt_length (t : Tape) : t.pointer < t.length := by
  simp [pointer, length]; omega

@[simp] theorem isEmpty_eq_false (t : Tape) : t.isEmpty = false := by
  simp [isEmpty, length]

theorem getElem?_pointer_toList (t : Tape) : t.toList[t.pointer]? = some t.current := by
  simp [toList, pointer]

theorem toList_new (cells : Nat) (width : CellWidth) :
    (new cells width).toList = List.replicate (initialCells cells) 0 := by
  have h : initialCells cells = initialCells cells - 1 + 1 := by unfold initialCells; omega
  rw [h, List.replicate_succ]
  simp [new, toList]

theorem toList_moveLeft (t : Tape) :
    t.moveLeft.toList = if t.pointer = 0 then 0 :: t.toList else t.toList := by
  cases h : t.left <;> simp [moveLeft, toList, pointer, h]

theorem toList_moveRight (t : Tape) :
    t.moveRight.toList =
      if t.pointer + 1 = t.length then t.toList ++ [0] else t.toList := by
  rcases t with ⟨w, left, cur, right, spare⟩
  cases right with
  | cons v right => simp [moveRight, toList, pointer, length]; omega
  | nil =>
    cases spare with
    | zero => simp [moveRight, toList, pointer, length]
    | succ n => simp [moveRight, toList, pointer, length, List.replicate_succ]

end Tape

end Brainfuck
