import Brainfuck.Tape
import Mathlib.Logic.Function.Basic

/-!
# The tape without ends

A line of cells in both directions, numbered by the integers, each of them a word of the width
that was chosen. A tape shows the line as it is seen from the pointer (`Tape.Shows`): what the
tape has not reached is zero on the line, and so nothing tells where the tape began or how many
cells it was given. Every operation on the tape is the plain operation on the line.
-/

namespace Brainfuck

/-- Cells without end in both directions, and a position among them. -/
structure Line (w : CellWidth) where
  cells : Int → BitVec w.bits
  pos : Int

namespace Line
variable {w : CellWidth}

def blank (w : CellWidth) : Line w :=
  { cells := fun _ => 0, pos := 0 }

def cell (l : Line w) : BitVec w.bits :=
  l.cells l.pos

def store (l : Line w) (v : BitVec w.bits) : Line w :=
  { l with cells := Function.update l.cells l.pos v }

def moveRight (l : Line w) : Line w :=
  { l with pos := l.pos + 1 }

def moveLeft (l : Line w) : Line w :=
  { l with pos := l.pos - 1 }

@[simp] theorem cell_store (l : Line w) (v : BitVec w.bits) : (l.store v).cell = v :=
  Function.update_self ..

@[simp] theorem store_store (l : Line w) (v v' : BitVec w.bits) : (l.store v).store v' = l.store v' := by
  simp [store]

@[simp] theorem store_cell (l : Line w) : l.store l.cell = l := by
  simp [store, cell]

@[simp] theorem moveLeft_moveRight (l : Line w) : l.moveRight.moveLeft = l := by
  simp [moveRight, moveLeft]

@[simp] theorem moveRight_moveLeft (l : Line w) : l.moveLeft.moveRight = l := by
  simp [moveRight, moveLeft]

theorem cells_store_of_ne {l : Line w} {i : Int} (h : i ≠ l.pos) (v : BitVec w.bits) :
    (l.store v).cells i = l.cells i :=
  Function.update_of_ne h ..

end Line

namespace Tape
variable {w : CellWidth} {t : Tape} {l : Line w}

structure Shows (t : Tape) (l : Line w) : Prop where
  width : t.width = w
  current : t.current = l.cell.toNat
  left : ∀ i : Nat, t.left.getD i 0 = (l.cells (l.pos - 1 - i)).toNat
  right : ∀ i : Nat, t.right.getD i 0 = (l.cells (l.pos + 1 + i)).toNat

theorem shows_new (cells : Nat) (w : CellWidth) : (new cells w).Shows (Line.blank w) where
  width := rfl
  current := rfl
  left := fun i => by simp [new, Line.blank]
  right := fun i => by simp [new, Line.blank]

theorem Shows.current_eq_zero_iff (h : t.Shows l) : t.current = 0 ↔ l.cell = 0 := by
  rw [h.current, ← BitVec.toNat_inj]; rfl

theorem Shows.store (h : t.Shows l) {n : Nat} {v : BitVec w.bits} (hv : n = v.toNat) :
    ({ t with current := n } : Tape).Shows (l.store v) := by
  have hcells : ∀ i, i ≠ l.pos → (l.store v).cells i = l.cells i :=
    fun i hi => Line.cells_store_of_ne hi v
  refine ⟨h.width, hv.trans (by rw [Line.cell_store]), fun i => ?_, fun i => ?_⟩
  · show t.left.getD i 0 = ((l.store v).cells (l.pos - 1 - i)).toNat
    rw [hcells _ (by omega)]; exact h.left i
  · show t.right.getD i 0 = ((l.store v).cells (l.pos + 1 + i)).toNat
    rw [hcells _ (by omega)]; exact h.right i

theorem Shows.set (h : t.Shows l) (n : Nat) : (t.set n).Shows (l.store (BitVec.ofNat _ n)) := by
  refine h.store ?_
  rw [h.width, BitVec.toNat_ofNat]; rfl

theorem Shows.increment (h : t.Shows l) : t.increment.Shows (l.store (l.cell + 1)) := by
  refine h.store ?_
  rw [h.width, h.current, BitVec.toNat_add]
  simp [CellWidth.succ, CellWidth.reduce, CellWidth.modulus]

theorem Shows.decrement (h : t.Shows l) : t.decrement.Shows (l.store (l.cell - 1)) := by
  refine h.store ?_
  have hone : (1 : BitVec w.bits).toNat = 1 := by cases w <;> rfl
  rw [h.width, h.current, BitVec.toNat_sub, hone]
  simp only [CellWidth.pred, CellWidth.reduce, CellWidth.mask, CellWidth.modulus, Nat.pow_eq]
  rw [Nat.add_comm]

theorem moveRight_eq (t : Tape) :
    t.moveRight = { t with
      left := t.current :: t.left, current := t.right.getD 0 0, right := t.right.tail,
      spare := if t.right = [] then t.spare - 1 else t.spare } := by
  unfold moveRight
  cases hr : t.right <;> simp

theorem moveLeft_eq (t : Tape) :
    t.moveLeft = { t with
      left := t.left.tail, current := t.left.getD 0 0, right := t.current :: t.right } := by
  unfold moveLeft
  cases hl : t.left <;> simp

theorem getD_tail (cells : List Nat) (i : Nat) : cells.tail.getD i 0 = cells.getD (i + 1) 0 := by
  cases cells <;> simp

theorem Shows.moveRight (h : t.Shows l) : t.moveRight.Shows l.moveRight := by
  rw [moveRight_eq]
  refine ⟨h.width, ?_, fun i => ?_, fun i => ?_⟩
  · have := h.right 0
    rwa [Int.natCast_zero, Int.add_zero] at this
  · show (t.current :: t.left).getD i 0 = (l.cells (l.pos + 1 - 1 - i)).toNat
    cases i with
    | zero =>
      rw [show l.pos + 1 - 1 - (0 : Nat) = l.pos by omega]
      exact h.current
    | succ i =>
      rw [show l.pos + 1 - 1 - ((i + 1 : Nat) : Int) = l.pos - 1 - i by omega]
      exact h.left i
  · show t.right.tail.getD i 0 = (l.cells (l.pos + 1 + 1 + i)).toNat
    rw [getD_tail, show l.pos + 1 + 1 + (i : Int) = l.pos + 1 + (i + 1 : Nat) by omega]
    exact h.right (i + 1)

theorem Shows.moveLeft (h : t.Shows l) : t.moveLeft.Shows l.moveLeft := by
  rw [moveLeft_eq]
  refine ⟨h.width, ?_, fun i => ?_, fun i => ?_⟩
  · have := h.left 0
    rwa [Int.natCast_zero, Int.sub_zero] at this
  · show t.left.tail.getD i 0 = (l.cells (l.pos - 1 - 1 - i)).toNat
    rw [getD_tail, show l.pos - 1 - 1 - (i : Int) = l.pos - 1 - (i + 1 : Nat) by omega]
    exact h.left (i + 1)
  · show (t.current :: t.right).getD i 0 = (l.cells (l.pos - 1 + 1 + i)).toNat
    cases i with
    | zero =>
      rw [show l.pos - 1 + 1 + (0 : Nat) = l.pos by omega]
      exact h.current
    | succ i =>
      rw [show l.pos - 1 + 1 + ((i + 1 : Nat) : Int) = l.pos + 1 + i by omega]
      exact h.right i

end Tape

end Brainfuck
