/-!
# Where a record is written to

A sink stores the bytes that are written to it. It may have room for a fixed
number of bytes; then it stores as many as fit, and the write that brings one
byte too many fails.
-/

namespace Brainfuck

structure Sink where
  /-- The number of bytes it has room for, if that is bounded. -/
  capacity : Option Nat
  /-- What is said when a write fails. -/
  fault : String
  /-- All that was written, including what did not fit. -/
  offered : String
deriving DecidableEq

namespace Sink

def unbounded : Sink :=
  { capacity := none, fault := "", offered := "" }

def bounded (capacity : Nat) (fault : String) : Sink :=
  { capacity := some capacity, fault, offered := "" }

def write (s : Sink) (text : String) : Sink :=
  { s with offered := s.offered ++ text }

/-- Whether more was written than there is room for. -/
def isFull (s : Sink) : Bool :=
  match s.capacity with
  | none => false
  | some room => decide (room < s.offered.utf8ByteSize)

/-- The bytes that are stored: the first ones, as many as there is room for. -/
def bytes (s : Sink) : ByteArray :=
  match s.capacity with
  | none => s.offered.toUTF8
  | some room => s.offered.toUTF8.extract 0 room

def size (s : Sink) : Nat :=
  s.bytes.size

/-- The stored bytes as text. When the last character did not fit whole, the text ends
before it. -/
def text (s : Sink) : String :=
  let bytes := s.bytes
  ((List.range 4).findSome? fun cut =>
    String.fromUTF8? (bytes.extract 0 (bytes.size - cut))).getD ""

@[simp] theorem offered_write (s : Sink) (text : String) :
    (s.write text).offered = s.offered ++ text :=
  rfl

@[simp] theorem write_write (s : Sink) (text more : String) :
    (s.write text).write more = s.write (text ++ more) := by
  simp [write, String.append_assoc]

theorem isFull_eq_true_iff (s : Sink) :
    s.isFull = true ↔ ∃ room, s.capacity = some room ∧ room < s.offered.utf8ByteSize := by
  cases h : s.capacity <;> simp [isFull, h]

/-- A sink that is full stays so. -/
theorem isFull_write {s : Sink} (h : s.isFull = true) (text : String) :
    (s.write text).isFull = true := by
  rw [isFull_eq_true_iff] at h ⊢
  obtain ⟨room, hroom, hlt⟩ := h
  refine ⟨room, hroom, ?_⟩
  rw [offered_write, String.utf8ByteSize_append]
  omega

end Sink

end Brainfuck
