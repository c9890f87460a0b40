/-!
# Decimal numbers

Numbers are written in decimal without leading zeros. They are read from one
or more digits, leading zeros allowed, after at most one plus sign; a number
that needs more than 64 bits is refused, and so is every other text.
-/

namespace Brainfuck.Text

def decimal (n : Nat) : String :=
  Nat.repr n

/-- The numbers that can be read are those below this bound. -/
def countBound : Nat :=
  UInt64.size

/-- The value of a row of digits that continues the number `n`. -/
def digitsFrom? (n : Nat) : List Char → Option Nat
  | [] => some n
  | c :: rest => if c.isDigit then digitsFrom? (10 * n + (c.toNat - '0'.toNat)) rest else none

def digits? : List Char → Option Nat
  | [] => none
  | text => digitsFrom? 0 text

/-- A text without the plus sign it may start with. -/
def dropPlus : List Char → List Char
  | '+' :: rest => rest
  | text => text

/-- The number below `countBound` that a text stands for. -/
def count? (text : List Char) : Option Nat :=
  (digits? (dropPlus text)).filter fun n => decide (n < countBound)

/-! ## Reading what was written -/

theorem isDigit_of_mem_decimal {n : Nat} {c : Char} (h : c ∈ (decimal n).toList) : c.isDigit = true := by
  rw [decimal, Nat.toList_repr] at h
  exact Nat.isDigit_of_mem_toDigits (by decide) (by decide) h

theorem newline_not_mem_decimal (n : Nat) : '\n' ∉ (decimal n).toList :=
  fun h => absurd (isDigit_of_mem_decimal h) (by decide)

theorem digitsFrom?_of_isDigit {digits : List Char} (h : ∀ c ∈ digits, c.isDigit = true) (n : Nat) :
    digitsFrom? n digits = some (Nat.ofDigitChars 10 digits n) := by
  induction digits generalizing n with
  | nil => rfl
  | cons c rest ih =>
    simp only [List.forall_mem_cons] at h
    rw [digitsFrom?, if_pos h.1, ih h.2, Nat.ofDigitChars_cons]

theorem digits?_decimal (n : Nat) : digits? (decimal n).toList = some n := by
  have hvalue := digitsFrom?_of_isDigit (fun c => isDigit_of_mem_decimal (n := n)) 0
  rw [decimal, Nat.toList_repr] at hvalue ⊢
  rw [Nat.ofDigitChars_ten_toDigits] at hvalue
  cases h : Nat.toDigits 10 n with
  | nil => exact absurd h Nat.toDigits_ne_nil
  | cons c rest =>
    rw [h] at hvalue
    exact hvalue

end Brainfuck.Text
