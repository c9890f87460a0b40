import Brainfuck.Text.GraphemeExtend
import Brainfuck.Text.Unprintable

/-!
# Quoted characters

A character between single quotes, so that it can be told apart in a line of
text whatever it is. A few control characters, the single quote and the
backslash have a short escape; any other character that could not be seen is
written by its code point in hexadecimal.
-/

namespace Brainfuck.Text

/-- A number in hexadecimal with small letters and no leading zero. -/
def hexadecimal (n : Nat) : String :=
  String.ofList (Nat.toDigits 16 n)

def isVisibleAscii (c : Char) : Bool :=
  ' ' ≤ c && c ≤ '~'

/-- Whether a character can be seen when it stands alone. -/
def isVisible (c : Char) : Bool :=
  isVisibleAscii c || !(isGraphemeExtend c.toNat || isUnprintable c.toNat)

/-- What stands between the quotes for a character. -/
def escaped (c : Char) : String :=
  if c = '\x00' then "\\0"
  else if c = '\t' then "\\t"
  else if c = '\r' then "\\r"
  else if c = '\n' then "\\n"
  else if c = '\x27' then "\\'"
  else if c = '\\' then "\\\\"
  else if isVisible c then c.toString
  else "\\u\x7b" ++ hexadecimal c.toNat ++ "\x7d"

def quoted (c : Char) : String :=
  "'" ++ escaped c ++ "'"

/-! ## No line feed is left -/

theorem newline_not_mem_toDigits (n : Nat) : '\n' ∉ Nat.toDigits 16 n := by
  induction n using Nat.strongRecOn with
  | ind n ih =>
    have hdigit : ∀ d : Nat, '\n' ≠ d.digitChar := fun d => (Nat.digitChar_ne '\n' (by decide)).symm
    rw [Nat.toDigits_eq_if (by decide)]
    by_cases h : n < 16
    · simp [if_pos h, hdigit]
    · simp [if_neg h, hdigit, ih (n / 16) (by omega)]

theorem newline_not_mem_escaped (c : Char) : '\n' ∉ (escaped c).toList := by
  by_cases hc : c = '\n'
  · subst hc; decide
  · unfold escaped
    rw [if_neg hc]
    (repeat' split)
    · decide
    · decide
    · decide
    · decide
    · decide
    · simpa [eq_comm] using hc
    · simp [hexadecimal, newline_not_mem_toDigits]

theorem newline_not_mem_quoted (c : Char) : '\n' ∉ (quoted c).toList := by
  simp [quoted, newline_not_mem_escaped]

end Brainfuck.Text
