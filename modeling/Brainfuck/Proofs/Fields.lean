import Brainfuck.Settings.Basic

/-!
# The fields of a layer

A layer is what it sets each setting to (`Layer.ext_get`), and a layer made from texts reads each
of them alone (`Layer.get_ofTexts`). A text stands for a value of a setting when it writes that
number, or the name of that choice (`Setting.read?_eq_some_iff`).
-/

namespace Brainfuck

/-! ## Numbers and names -/

/-- One or more digits, after at most one plus sign, that write the number `n` in 64 bits. -/
def Text.Writes (text : List Char) (n : Nat) : Prop :=
  ∃ digits, (text = digits ∨ text = '+' :: digits) ∧ digits ≠ [] ∧ (∀ c ∈ digits, c.isDigit = true) ∧
    Nat.ofDigitChars 10 digits 0 = n ∧ n < UInt64.size

namespace Text

theorem digitsFrom?_eq_some_iff {text : List Char} {m n : Nat} :
    digitsFrom? m text = some n ↔ (∀ c ∈ text, c.isDigit = true) ∧ Nat.ofDigitChars 10 text m = n := by
  induction text generalizing m with
  | nil => simp [digitsFrom?, Nat.ofDigitChars]
  | cons c rest ih =>
    unfold digitsFrom?
    by_cases hc : c.isDigit = true
    · rw [if_pos hc, ih, Nat.ofDigitChars_cons]
      simp [hc]
    · simp [hc]

theorem digits?_eq_some_iff {text : List Char} {n : Nat} :
    digits? text = some n ↔
      text ≠ [] ∧ (∀ c ∈ text, c.isDigit = true) ∧ Nat.ofDigitChars 10 text 0 = n := by
  cases text with
  | nil => simp [digits?]
  | cons c rest => simp only [digits?, digitsFrom?_eq_some_iff, ne_eq, reduceCtorEq, not_false_eq_true, true_and]

theorem count?_eq_some_iff {text : List Char} {n : Nat} : count? text = some n ↔ Writes text n := by
  unfold count? countBound
  rw [Option.filter_eq_some_iff, digits?_eq_some_iff, decide_eq_true_iff]
  apply Iff.intro
  · intro h
    obtain ⟨⟨hne, hdigits, hvalue⟩, hn⟩ := h
    refine ⟨dropPlus text, ?_, hne, hdigits, hvalue, hn⟩
    unfold dropPlus
    split
    · exact Or.inr rfl
    · exact Or.inl rfl
  · intro h
    obtain ⟨digits, htext, hne, hdigits, hvalue, hn⟩ := h
    have hdrop : dropPlus text = digits := by
      rcases htext with rfl | rfl
      · -- the first digit is no plus sign
        unfold dropPlus
        split
        · exact absurd (hdigits '+' (List.mem_cons_self ..)) (by decide)
        · rfl
      · rfl
    rw [hdrop]
    exact ⟨⟨hne, hdigits, hvalue⟩, hn⟩

theorem writes_decimal {n : Nat} (h : n < UInt64.size) : Writes (decimal n).toList n := by
  obtain ⟨hne, hdigits, hvalue⟩ := digits?_eq_some_iff.mp (digits?_decimal n)
  exact ⟨_, Or.inl rfl, hne, hdigits, hvalue, h⟩

end Text

namespace Named

class Lawful (α : Type) [Named α] : Prop where
  mem_all : ∀ a : α, a ∈ (all : List α)
  eq_of_fold : ∀ a b : α, fold (name a).toList = fold (name b).toList → a = b

instance : Lawful CellWidth where
  mem_all a := by cases a <;> decide
  eq_of_fold a b := by cases a <;> cases b <;> decide

instance : Lawful LoopStrategy where
  mem_all a := by cases a <;> decide
  eq_of_fold a b := by cases a <;> cases b <;> decide

theorem ofFoldedName?_eq_some_iff {α : Type} [Named α] [Lawful α] {text : List Char} {a : α} :
    ofFoldedName? text = some a ↔ fold text = fold (name a).toList := by
  apply Iff.intro
  · intro h
    exact (fold_name_ofFoldedName? h).symm
  · intro h
    cases hfind : ofFoldedName? (α := α) text with
    | none =>
      have hno := List.find?_eq_none.mp hfind a (Lawful.mem_all a)
      exact absurd h.symm (by simpa using hno)
    | some b => rw [Lawful.eq_of_fold b a ((fold_name_ofFoldedName? hfind).trans h)]

end Named

/-! ## Fields -/

namespace Setting

def Value : Setting → Type
  | tapeCells => Nat
  | cellWidth => CellWidth
  | loopStrategy => LoopStrategy
  | maxSteps => Nat
  | timeout => Nat

def read? : (s : Setting) → List Char → Option s.Value
  | tapeCells => Text.count?
  | cellWidth => Named.ofFoldedName? (α := CellWidth)
  | loopStrategy => Named.ofFoldedName? (α := LoopStrategy)
  | maxSteps => Text.count?
  | timeout => Text.count?

def Writes : (s : Setting) → List Char → s.Value → Prop
  | tapeCells, text, n => Text.Writes text n
  | cellWidth, text, w => Named.fold text = Named.fold (Named.name (α := CellWidth) w).toList
  | loopStrategy, text, strategy => Named.fold text = Named.fold (Named.name (α := LoopStrategy) strategy).toList
  | maxSteps, text, n => Text.Writes text n
  | timeout, text, n => Text.Writes text n

theorem read?_eq_some_iff {s : Setting} {text : List Char} {v : s.Value} :
    s.read? text = some v ↔ s.Writes text v := by
  cases s with
  | tapeCells => exact Text.count?_eq_some_iff
  | cellWidth => exact Named.ofFoldedName?_eq_some_iff
  | loopStrategy => exact Named.ofFoldedName?_eq_some_iff
  | maxSteps => exact Text.count?_eq_some_iff
  | timeout => exact Text.count?_eq_some_iff

end Setting

namespace Layer

def get (l : Layer) : (s : Setting) → Option s.Value
  | .tapeCells => l.tapeCells
  | .cellWidth => l.cellWidth
  | .loopStrategy => l.loopStrategy
  | .maxSteps => l.maxSteps
  | .timeout => l.timeout

theorem ext_get {l m : Layer} (h : ∀ s, l.get s = m.get s) : l = m := by
  have hcells : l.tapeCells = m.tapeCells := h .tapeCells
  have hwidth : l.cellWidth = m.cellWidth := h .cellWidth
  have hstrategy : l.loopStrategy = m.loopStrategy := h .loopStrategy
  have hsteps : l.maxSteps = m.maxSteps := h .maxSteps
  have htimeout : l.timeout = m.timeout := h .timeout
  cases l
  cases m
  simp_all

theorem get_ofTexts (text : Setting → Option (List Char)) (s : Setting) :
    (ofTexts text).get s = (text s).bind s.read? := by
  cases s <;> rfl

@[simp] theorem get_empty (s : Setting) : empty.get s = none := by
  cases s <;> rfl

@[simp] theorem get_orElse (upper lower : Layer) (s : Setting) :
    (upper.orElse lower).get s = (upper.get s).or (lower.get s) := by
  cases s <;> rfl

end Layer

end Brainfuck
