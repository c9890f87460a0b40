/-!
# Lines

A text is a list of lines with a line feed between each two.
-/

namespace Brainfuck.Text

/-- The lines of a text. There is always one, which may be empty. -/
def lines : List Char → List (List Char)
  | [] => [[]]
  | c :: rest =>
    if c = '\n' then
      [] :: lines rest
    else
      match lines rest with
      | [] => [[c]]
      | line :: more => (c :: line) :: more

theorem lines_of_not_mem {line : List Char} (h : '\n' ∉ line) : lines line = [line] := by
  induction line with
  | nil => rfl
  | cons c line ih =>
    simp only [List.mem_cons, not_or] at h
    rw [lines, if_neg (Ne.symm h.1), ih h.2]

theorem lines_append {line : List Char} (h : '\n' ∉ line) (rest : List Char) :
    lines (line ++ '\n' :: rest) = line :: lines rest := by
  induction line with
  | nil => simp [lines]
  | cons c line ih =>
    simp only [List.mem_cons, not_or] at h
    rw [List.cons_append, lines, if_neg (Ne.symm h.1), ih h.2]

/-- Lines that each end with a line feed. Nothing is left behind the last one. -/
theorem lines_flatMap {list : List (List Char)} (h : ∀ line ∈ list, '\n' ∉ line) :
    lines (list.flatMap (· ++ ['\n'])) = list ++ [[]] := by
  induction list with
  | nil => rfl
  | cons line more ih =>
    simp only [List.forall_mem_cons] at h
    rw [List.flatMap_cons, List.append_assoc, List.singleton_append, lines_append h.1, ih h.2]
    rfl

end Brainfuck.Text
