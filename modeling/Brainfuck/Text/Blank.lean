/-!
# Blank characters

The characters with the Unicode property White_Space, and trimming them from
both ends of a text.
-/

namespace Brainfuck.Text

/-- The code points of the blank characters, as ranges with both ends included. -/
def blankRanges : List (Nat × Nat) :=
  [(0x09, 0x0D), (0x20, 0x20), (0x85, 0x85), (0xA0, 0xA0), (0x1680, 0x1680), (0x2000, 0x200A),
   (0x2028, 0x2029), (0x202F, 0x202F), (0x205F, 0x205F), (0x3000, 0x3000)]

def isBlank (c : Char) : Bool :=
  blankRanges.any fun r => r.1 ≤ c.toNat && c.toNat ≤ r.2

def trimStart (text : List Char) : List Char :=
  text.dropWhile isBlank

def trimEnd (text : List Char) : List Char :=
  (text.reverse.dropWhile isBlank).reverse

def trim (text : List Char) : List Char :=
  trimEnd (trimStart text)

/-- Nothing but blanks. -/
def Blank (text : List Char) : Prop :=
  ∀ c ∈ text, isBlank c = true

/-- A text without blanks. -/
def Solid (text : List Char) : Prop :=
  ∀ c ∈ text, isBlank c = false

instance (text : List Char) : Decidable (Blank text) :=
  decidable_of_iff (text.all isBlank = true) List.all_eq_true

instance (text : List Char) : Decidable (Solid text) :=
  decidable_of_iff (text.all (fun c => !isBlank c) = true) (by simp [Solid])

theorem isBlank_of_isDigit {c : Char} (h : c.isDigit = true) : isBlank c = false := by
  have hc : 48 ≤ c.toNat ∧ c.toNat ≤ 57 := by
    simpa [Char.isDigit, UInt32.le_iff_toNat_le] using h
  have hranges : ∀ r ∈ blankRanges, r.2 < 48 ∨ 57 < r.1 := by decide
  rw [isBlank, List.any_eq_false]
  intro r hr
  have := hranges r hr
  simp only [Bool.and_eq_true, decide_eq_true_eq]
  omega

theorem dropWhile_isBlank {word : List Char} (h : Solid word) :
    word.dropWhile isBlank = word := by
  cases word with
  | nil => rfl
  | cons c rest => simp [h c]

/-! ## Trimming -/

section
variable {blanks text : List Char} {c : Char}

theorem trimStart_append_cons (h : isBlank c = false) (before after : List Char) :
    trimStart (before ++ c :: after) = trimStart before ++ c :: after := by
  unfold trimStart
  rw [List.dropWhile_append]
  by_cases hb : (before.dropWhile isBlank).isEmpty = true
  · rw [if_pos hb, List.isEmpty_iff.mp hb]
    simp [h]
  · rw [if_neg hb]

theorem trimEnd_append_cons (h : isBlank c = false) (before after : List Char) :
    trimEnd (before ++ c :: after) = before ++ c :: trimEnd after := by
  have hreverse : (before ++ c :: after).reverse = after.reverse ++ c :: before.reverse := by simp
  unfold trimEnd
  rw [hreverse]
  change (trimStart (after.reverse ++ c :: before.reverse)).reverse = _
  rw [trimStart_append_cons h]
  simp [trimStart]

/-- A character that is not blank cuts a text in two parts that are trimmed apart. -/
theorem trim_append_cons (h : isBlank c = false) (before after : List Char) :
    trim (before ++ c :: after) = trimStart before ++ c :: trimEnd after := by
  rw [trim, trimStart_append_cons h, trimEnd_append_cons h]

theorem trim_cons_of_not_blank (h : isBlank c = false) (text : List Char) :
    trim (c :: text) = c :: trimEnd text :=
  trim_append_cons h [] text

theorem trim_blank_append (h : Blank blanks) (text : List Char) :
    trim (blanks ++ text) = trim text := by
  unfold trim trimStart
  rw [List.dropWhile_append_of_pos h]

theorem trimEnd_append_blank (h : Blank blanks) (text : List Char) :
    trimEnd (text ++ blanks) = trimEnd text := by
  unfold trimEnd
  rw [List.reverse_append, List.dropWhile_append_of_pos fun c hc => h c (List.mem_reverse.mp hc)]

theorem trim_append_blank (h : Blank blanks) (text : List Char) :
    trim (text ++ blanks) = trim text := by
  have hnil : (blanks ++ []).dropWhile isBlank = [] := List.dropWhile_append_of_pos h
  rw [List.append_nil] at hnil
  unfold trim trimStart
  rw [List.dropWhile_append]
  by_cases hb : (text.dropWhile isBlank).isEmpty = true
  · rw [if_pos hb, hnil, List.isEmpty_iff.mp hb]
  · rw [if_neg hb, trimEnd_append_blank h]

theorem trim_cons (h : isBlank c = true) (text : List Char) : trim (c :: text) = trim text := by
  simp [trim, trimStart, h]

theorem trim_blank (h : Blank blanks) : trim blanks = [] :=
  trim_append_blank h []

theorem isBlank_of_mem_takeWhile (h : c ∈ text.takeWhile isBlank) : isBlank c = true :=
  List.all_eq_true.mp List.all_takeWhile c h

theorem trim_trimStart (text : List Char) : trim (trimStart text) = trim text := by
  have hblank : Blank (text.takeWhile isBlank) := fun c => isBlank_of_mem_takeWhile
  have h := trim_blank_append hblank (trimStart text)
  unfold trimStart at h ⊢
  rw [List.takeWhile_append_dropWhile] at h
  exact h.symm

theorem trim_trimEnd (text : List Char) : trim (trimEnd text) = trim text := by
  have hblank : Blank (text.reverse.takeWhile isBlank).reverse :=
    fun c hc => isBlank_of_mem_takeWhile (List.mem_reverse.mp hc)
  have h := trim_append_blank hblank (trimEnd text)
  unfold trimEnd at h ⊢
  rw [← List.reverse_append, List.takeWhile_append_dropWhile, List.reverse_reverse] at h
  exact h.symm

theorem trim_append {word back : List Char} (hword : Solid word)
    (hback : Blank back) : trim (word ++ back) = word := by
  rw [trim_append_blank hback, trim, trimStart, trimEnd, dropWhile_isBlank hword]
  rw [dropWhile_isBlank fun d hd => hword d (List.mem_reverse.mp hd), List.reverse_reverse]

/-- A word with blanks around it. -/
theorem trim_around {word front back : List Char} (hword : Solid word)
    (hfront : Blank front) (hback : Blank back) :
    trim (front ++ word ++ back) = word := by
  rw [List.append_assoc, trim_blank_append hfront, trim_append hword hback]

end

end Brainfuck.Text
