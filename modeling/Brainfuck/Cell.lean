import Brainfuck.Named

/-!
# Cells

A cell holds a natural number below `2 ^ bits`, where the number of bits is
chosen once for the whole tape. Every value that is stored is first reduced
modulo `2 ^ bits`. A cell is printed as the character with its value for code
point.
-/

namespace Brainfuck

inductive CellWidth where
  | byte
  | word
  | wide
deriving DecidableEq

namespace CellWidth

instance : Named CellWidth where
  all := [byte, word, wide]
  name
    | byte => "byte"
    | word => "word"
    | wide => "wide"

def bits : CellWidth → Nat
  | byte => 8
  | word => 16
  | wide => 32

def modulus (w : CellWidth) : Nat :=
  Nat.pow 2 w.bits

def mask (w : CellWidth) : Nat :=
  w.modulus - 1

/-- The value that is stored when `v` is written. -/
def reduce (w : CellWidth) (v : Nat) : Nat :=
  v % w.modulus

/-- One more, starting again from `0` after the largest value. -/
def succ (w : CellWidth) (v : Nat) : Nat :=
  w.reduce (v + 1)

/-- One less, with the largest value before `0`. -/
def pred (w : CellWidth) (v : Nat) : Nat :=
  w.reduce (v + w.mask)

/-! ## Range of the stored values -/

theorem modulus_pos (w : CellWidth) : 0 < w.modulus :=
  Nat.two_pow_pos _

theorem reduce_lt (w : CellWidth) (v : Nat) : w.reduce v < w.modulus :=
  Nat.mod_lt _ w.modulus_pos

theorem reduce_le_mask (w : CellWidth) (v : Nat) : w.reduce v ≤ w.mask :=
  Nat.le_sub_one_of_lt (w.reduce_lt v)

theorem reduce_of_le_mask {w : CellWidth} {v : Nat} (h : v ≤ w.mask) : w.reduce v = v :=
  Nat.mod_eq_of_lt (Nat.lt_of_le_pred w.modulus_pos h)

@[simp] theorem reduce_zero (w : CellWidth) : w.reduce 0 = 0 :=
  Nat.zero_mod _

end CellWidth

/-- The character that prints a cell: the one whose code point is the value of
the cell, or the replacement character when no character has that code point. -/
def cellChar (v : Nat) : Char :=
  if v.isValidChar then Char.ofNat v else '\uFFFD'

end Brainfuck
