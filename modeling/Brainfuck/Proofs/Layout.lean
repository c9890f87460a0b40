import Brainfuck.Proofs.Line
import Mathlib.Order.Bounds.Basic
import Mathlib.Algebra.Order.Group.Int
import Mathlib.Data.List.Induction

/-!
# Where the cells of a tape lie

Any operations on a new tape are followed on the line without ends. The tape has the part of the line
between the lowest and the highest position that the pointer came to, and the cells set aside at the
start; its first cell is the one at the lowest position (`Tape.layout`).
-/

namespace Brainfuck

inductive TapeOp where
  | moveRight
  | moveLeft
  | increment
  | decrement
  | set (v : Nat)
deriving DecidableEq

namespace TapeOp

def onTape (t : Tape) : TapeOp → Tape
  | moveRight => t.moveRight
  | moveLeft => t.moveLeft
  | increment => t.increment
  | decrement => t.decrement
  | set v => t.set v

def onLine {w : CellWidth} (l : Line w) : TapeOp → Line w
  | moveRight => l.moveRight
  | moveLeft => l.moveLeft
  | increment => l.store (l.cell + 1)
  | decrement => l.store (l.cell - 1)
  | set v => l.store (BitVec.ofNat _ v)

def shift : TapeOp → Int
  | moveRight => 1
  | moveLeft => -1
  | _ => 0

end TapeOp

def Tape.after (cells : Nat) (w : CellWidth) (ops : List TapeOp) : Tape :=
  ops.foldl TapeOp.onTape (Tape.new cells w)

def Line.after (w : CellWidth) (ops : List TapeOp) : Line w :=
  ops.foldl TapeOp.onLine (Line.blank w)

theorem Tape.after_snoc (cells : Nat) (w : CellWidth) (ops : List TapeOp) (op : TapeOp) :
    Tape.after cells w (ops ++ [op]) = op.onTape (Tape.after cells w ops) := by
  simp [Tape.after]

theorem Line.after_snoc (w : CellWidth) (ops : List TapeOp) (op : TapeOp) :
    Line.after w (ops ++ [op]) = op.onLine (Line.after w ops) := by
  simp [Line.after]

def displacement (ops : List TapeOp) : Int :=
  ops.count .moveRight - ops.count .moveLeft

def positions (ops : List TapeOp) : Set Int :=
  { p | ∃ before, before <+: ops ∧ displacement before = p }

/-! ## Positions -/

section
variable (ops : List TapeOp) (op : TapeOp)

theorem displacement_snoc : displacement (ops ++ [op]) = displacement ops + op.shift := by
  cases op <;> simp [displacement, TapeOp.shift] <;> omega

theorem positions_nil : positions [] = {0} := by
  ext p
  simp [positions, displacement, eq_comm]

theorem positions_snoc : positions (ops ++ [op]) = insert (displacement (ops ++ [op])) (positions ops) := by
  ext p
  simp only [positions, List.prefix_concat_iff, Set.mem_insert_iff, Set.mem_ofPred_eq]
  apply Iff.intro
  · intro h
    obtain ⟨before, rfl | hb, rfl⟩ := h
    · exact Or.inl rfl
    · exact Or.inr ⟨before, hb, rfl⟩
  · intro h
    obtain rfl | ⟨before, hb, rfl⟩ := h
    · exact ⟨_, Or.inl rfl, rfl⟩
    · exact ⟨before, Or.inr hb, rfl⟩

theorem zero_mem_positions : 0 ∈ positions ops :=
  ⟨[], List.nil_prefix, rfl⟩

theorem displacement_mem_positions : displacement ops ∈ positions ops :=
  ⟨ops, List.prefix_refl ops, rfl⟩

end

/-! ## The pointer and the length -/

namespace Tape

theorem pointer_moveRight (t : Tape) : t.moveRight.pointer = t.pointer + 1 := by
  simp [moveRight_eq, pointer]

theorem pointer_moveLeft (t : Tape) : t.moveLeft.pointer = t.pointer - 1 := by
  simp [moveLeft_eq, pointer]

theorem length_moveRight (t : Tape) :
    t.moveRight.length = if t.pointer + 1 = t.length then t.length + 1 else t.length := by
  rw [← length_toList, toList_moveRight]
  split <;> simp

theorem length_moveLeft (t : Tape) :
    t.moveLeft.length = if t.pointer = 0 then t.length + 1 else t.length := by
  rw [← length_toList, toList_moveLeft]
  split <;> simp

/-- The pointer and the length of a tape, from the positions that its pointer came to. -/
structure Laid (cells : Nat) (pos lo hi : Int) (t : Tape) : Prop where
  pointer : (t.pointer : Int) = pos - lo
  length : (t.length : Int) = max (initialCells cells : Int) (hi + 1) - lo

theorem laid_new (cells : Nat) (w : CellWidth) : (new cells w).Laid cells 0 0 0 where
  pointer := rfl
  length := by
    rw [← length_toList, toList_new, List.length_replicate]
    unfold initialCells
    omega

theorem Laid.onTape {cells : Nat} {pos lo hi : Int} {t : Tape} (h : t.Laid cells pos lo hi)
    (hlo : lo ≤ pos) (hhi : pos ≤ hi) (op : TapeOp) :
    (op.onTape t).Laid cells (pos + op.shift) (min (pos + op.shift) lo) (max (pos + op.shift) hi) := by
  have hp := h.pointer
  have hl := h.length
  -- a move that runs off an end adds a cell there; on the left the first cell is then at a lower position
  cases op with
  | moveRight =>
    have hlen := t.length_moveRight
    have hptr := t.pointer_moveRight
    refine ⟨?_, ?_⟩ <;> simp only [TapeOp.onTape, TapeOp.shift]
    · omega
    · split at hlen <;> omega
  | moveLeft =>
    have hlen := t.length_moveLeft
    have hptr := t.pointer_moveLeft
    refine ⟨?_, ?_⟩ <;> simp only [TapeOp.onTape, TapeOp.shift]
    · omega
    · split at hlen <;> omega
  | _ =>
    simp only [TapeOp.shift, Int.add_zero, min_eq_right hlo, max_eq_right hhi]
    exact ⟨hp, hl⟩

theorem exists_laid (cells : Nat) (w : CellWidth) (ops : List TapeOp) :
    ∃ lo hi, IsLeast (positions ops) lo ∧ IsGreatest (positions ops) hi ∧
      (after cells w ops).Laid cells (displacement ops) lo hi := by
  induction ops using List.reverseRecOn with
  | nil =>
    rw [positions_nil]
    exact ⟨0, 0, isLeast_singleton, isGreatest_singleton, laid_new cells w⟩
  | append_singleton ops op ih =>
    obtain ⟨lo, hi, hlo, hhi, h⟩ := ih
    have hmem := displacement_mem_positions ops
    have hstep := h.onTape (hlo.2 hmem) (hhi.2 hmem) op
    rw [← displacement_snoc] at hstep
    rw [positions_snoc]
    -- the last operation adds one position, which may be below or above all others
    refine ⟨_, _, hlo.insert _, hhi.insert _, ?_⟩
    rw [after_snoc]
    exact hstep

end Tape

/-! ## The cells -/

section
variable {w : CellWidth} {t : Tape} {l : Line w}

theorem TapeOp.shows (h : t.Shows l) (op : TapeOp) : (op.onTape t).Shows (op.onLine l) := by
  cases op with
  | moveRight => exact h.moveRight
  | moveLeft => exact h.moveLeft
  | increment => exact h.increment
  | decrement => exact h.decrement
  | set v => exact h.set v

theorem TapeOp.pos_onLine (l : Line w) (op : TapeOp) : (op.onLine l).pos = l.pos + op.shift := by
  cases op with
  | moveRight => rfl
  | moveLeft => rfl
  | _ => simp [onLine, shift, Line.store]

theorem Tape.shows_after (cells : Nat) (w : CellWidth) (ops : List TapeOp) :
    (Tape.after cells w ops).Shows (Line.after w ops) := by
  induction ops using List.reverseRecOn with
  | nil => exact Tape.shows_new cells w
  | append_singleton ops op ih =>
    rw [Tape.after_snoc, Line.after_snoc]
    exact TapeOp.shows ih op

theorem Line.pos_after (w : CellWidth) (ops : List TapeOp) : (Line.after w ops).pos = displacement ops := by
  induction ops using List.reverseRecOn with
  | nil => rfl
  | append_singleton ops op ih =>
    rw [Line.after_snoc, TapeOp.pos_onLine, ih, displacement_snoc]

theorem getElem?_eq_some_getD {cells : List Nat} {i : Nat} (h : i < cells.length) :
    cells[i]? = some (cells.getD i 0) := by
  simp [h]

theorem Tape.Shows.getElem?_toList (h : t.Shows l) {i : Nat} (hi : i < t.length) :
    t.toList[i]? = some (l.cells (l.pos - t.pointer + i)).toNat := by
  unfold Tape.length at hi
  unfold Tape.toList Tape.pointer
  rcases Nat.lt_trichotomy i t.left.length with hlt | rfl | hgt
  · rw [List.getElem?_append_left (by simpa using hlt), List.getElem?_reverse hlt,
      getElem?_eq_some_getD (by omega), h.left]
    congr 3
    omega
  · rw [List.getElem?_append_right (by simp)]
    simp only [List.length_reverse, Nat.sub_self, List.getElem?_cons_zero, h.current, Int.sub_add_cancel]
    rfl
  · obtain ⟨k, rfl⟩ := Nat.exists_eq_add_of_lt hgt
    rw [List.getElem?_append_right (by simp; omega), List.length_reverse,
      show t.left.length + k + 1 - t.left.length = k + 1 by omega, List.getElem?_cons_succ,
      show l.pos - t.left.length + ((t.left.length + k + 1 : Nat) : Int) = l.pos + 1 + k by omega, ← h.right]
    by_cases hk : k < t.right.length
    · rw [List.getElem?_append_left hk, getElem?_eq_some_getD hk]
    · -- a cell that was set aside and not reached
      rw [List.getElem?_append_right (by omega), List.getElem?_replicate_of_lt (by omega)]
      simp [Nat.not_lt.mp hk]

end

/-- **The layout of a tape.** The pointer is as far from the first cell as its position on the line is from
the lowest one, the tape reaches up to the highest one or as far as at the start, and its cells are those of
the line. -/
theorem Tape.layout (cells : Nat) (w : CellWidth) (ops : List TapeOp) :
    let t := Tape.after cells w ops
    let line := Line.after w ops
    let pos := displacement ops
    ∃ lo hi : Int, IsLeast (positions ops) lo ∧ IsGreatest (positions ops) hi ∧ lo ≤ 0 ∧ 0 ≤ hi ∧
      (t.pointer : Int) = pos - lo ∧
      (t.length : Int) = max (initialCells cells : Int) (hi + 1) - lo ∧
      (∀ i < t.length, t.toList[i]? = some (line.cells (i + lo)).toNat) ∧
      t.pointer < t.length ∧ t.current = (line.cells pos).toNat := by
  intro t line pos
  obtain ⟨lo, hi, hlo, hhi, h⟩ := exists_laid cells w ops
  have hzero := zero_mem_positions ops
  have hshows : t.Shows line := shows_after cells w ops
  have hpos : line.pos = pos := Line.pos_after w ops
  refine ⟨lo, hi, hlo, hhi, hlo.2 hzero, hhi.2 hzero, h.pointer, h.length, ?_, t.pointer_lt_length, ?_⟩
  · intro i hi
    rw [hshows.getElem?_toList hi, hpos, h.pointer]
    congr 3
    omega
  · rw [hshows.current, Line.cell, hpos]

example : (Tape.after 2 .byte [.increment, .moveLeft, .decrement]).toList = [255, 1, 0] := by decide

end Brainfuck
