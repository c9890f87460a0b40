import Brainfuck.Settings.ConfigText

/-!
# What a line of a configuration says

A line is a header when it stands in square brackets, and an assignment when it is no header and no
remark and has an equals sign (`ConfigLine.ofChars_eq_header_iff`,
`ConfigLine.ofChars_eq_assignment_iff`). To take off a pair of brackets or quotes never cuts a
character in two (`ConfigLine.ofBytes?_eq_some`).
-/

namespace Brainfuck

theorem getLast?_cons_append (c d : Char) (inner : List Char) : (c :: (inner ++ [d])).getLast? = some d := by
  rw [← List.cons_append, List.getLast?_concat]

theorem eq_cons_append_of_ends {c d : Char} {text : List Char} (hlength : 2 ≤ text.length)
    (hfirst : text.head? = some c) (hlast : text.getLast? = some d) :
    text = c :: (text.tail.dropLast ++ [d]) := by
  obtain ⟨front, rfl⟩ := List.getLast?_eq_some_iff.mp hlast
  cases front with
  | nil => simp at hlength
  | cons a front =>
    cases hfirst
    simp

/-! ## Bytes of a text -/

namespace Text

def byteLength : List Char → Nat
  | [] => 0
  | c :: rest => c.utf8Size + byteLength rest

/-- A text cut behind its first `n` bytes; refused when there are fewer, or the cut is inside a
character. -/
def splitBytes? : List Char → Nat → Option (List Char × List Char)
  | text, 0 => some ([], text)
  | [], _ + 1 => none
  | c :: rest, n + 1 =>
    if c.utf8Size ≤ n + 1 then
      (splitBytes? rest (n + 1 - c.utf8Size)).map fun cut => (c :: cut.1, cut.2)
    else
      none

def slice? (text : List Char) (first last : Nat) : Option (List Char) :=
  (splitBytes? text last).bind fun cut => (splitBytes? cut.1 first).map (·.2)

theorem byteLength_append (front back : List Char) :
    byteLength (front ++ back) = byteLength front + byteLength back := by
  induction front with
  | nil => simp [byteLength]
  | cons c front ih => simp [byteLength, ih, Nat.add_assoc]

theorem length_le_byteLength (text : List Char) : text.length ≤ byteLength text := by
  induction text with
  | nil => simp [byteLength]
  | cons c rest ih =>
    have := c.utf8Size_pos
    rw [byteLength, List.length_cons]
    omega

theorem splitBytes?_append (front back : List Char) :
    splitBytes? (front ++ back) (byteLength front) = some (front, back) := by
  induction front with
  | nil => cases back <;> rfl
  | cons c front ih =>
    -- a character has at least one byte
    obtain ⟨n, hn⟩ := Nat.exists_eq_succ_of_ne_zero (Nat.pos_iff_ne_zero.mp c.utf8Size_pos)
    have hlength : byteLength (c :: front) = n + byteLength front + 1 := by
      rw [byteLength]
      omega
    have hrest : n + byteLength front + 1 - c.utf8Size = byteLength front := by omega
    rw [List.cons_append, hlength, splitBytes?, if_pos (by omega), hrest, ih]
    rfl

/-- A text without its first and its last character, when each of these is one byte. -/
theorem slice?_of_ends {c d : Char} {text : List Char} (hc : c.utf8Size = 1) (hd : d.utf8Size = 1)
    (hlength : 2 ≤ text.length) (hfirst : text.head? = some c) (hlast : text.getLast? = some d) :
    slice? text 1 (byteLength text - 1) = some text.tail.dropLast := by
  have htext := eq_cons_append_of_ends hlength hfirst hlast
  generalize text.tail.dropLast = inner at htext
  subst htext
  have hend : byteLength (c :: (inner ++ [d])) - 1 = byteLength (c :: inner) := by
    rw [← List.cons_append, byteLength_append]
    simp [byteLength, hd]
  have hone : 1 = byteLength [c] := by simp [byteLength, hc]
  unfold slice?
  rw [hend, ← List.cons_append, splitBytes?_append, Option.bind_some, hone, ← List.singleton_append,
    splitBytes?_append]
  rfl

end Text

namespace ConfigLine
variable {line key value name : List Char}

/-! ## Headers and assignments -/

def Heads (line name : List Char) : Prop :=
  ∃ inner, Text.trim line = '[' :: (inner ++ [']']) ∧ Text.trim inner = name

/-- The text is `value`, or `value` in double quotes. Of two pairs of quotes only one is taken off. -/
inductive Quotes (text : List Char) : List Char → Prop
  | quoted {value : List Char} (h : text = '\x22' :: (value ++ ['\x22'])) : Quotes text value
  | bare (h : ∀ value, text ≠ '\x22' :: (value ++ ['\x22'])) : Quotes text text

structure Assigns (line key value : List Char) : Prop where
  not_remark : (Text.trim line).head? ≠ some '#'
  not_header : ∀ name, ¬ Heads line name
  parts : ∃ before after, Text.trim line = before ++ '=' :: after ∧ '=' ∉ before ∧
    Text.trim before = key ∧ Quotes (Text.trim after) value

theorem two_le_length_of_brackets {text : List Char} (hfirst : text.head? = some '[')
    (hlast : text.getLast? = some ']') : 2 ≤ text.length := by
  match text with
  | [] => cases hfirst
  | [c] =>
    cases hfirst
    exact absurd hlast (by decide)
  | c :: d :: rest => simp

theorem heads_iff :
    Heads line name ↔ ((Text.trim line).head? = some '[' ∧ (Text.trim line).getLast? = some ']') ∧
      Text.trim (Text.trim line).tail.dropLast = name := by
  apply Iff.intro
  · intro h
    obtain ⟨inner, hline, hname⟩ := h
    rw [hline]
    simp [getLast?_cons_append, hname]
  · intro h
    obtain ⟨⟨hfirst, hlast⟩, hname⟩ := h
    exact ⟨_, eq_cons_append_of_ends (two_le_length_of_brackets hfirst hlast) hfirst hlast, hname⟩

theorem exists_heads_iff :
    (∃ name, Heads line name) ↔ (Text.trim line).head? = some '[' ∧ (Text.trim line).getLast? = some ']' := by
  simp [heads_iff]

theorem unquote_quotes (text : List Char) : Quotes text (unquote text) := by
  unfold unquote
  by_cases h : 2 ≤ text.length ∧ text.head? = some '\x22' ∧ text.getLast? = some '\x22'
  · rw [if_pos h]
    exact .quoted (eq_cons_append_of_ends h.1 h.2.1 h.2.2)
  · rw [if_neg h]
    apply Quotes.bare
    intro value htext
    apply h
    rw [htext]
    simp [getLast?_cons_append]

theorem unquote_of_ends {text : List Char}
    (h : ¬ (text.head? = some '\x22' ∧ text.getLast? = some '\x22')) : unquote text = text := by
  unfold unquote
  rw [if_neg]
  intro hquotes
  exact h hquotes.2

theorem Quotes.eq_unquote {text : List Char} (h : Quotes text value) : value = unquote text := by
  have hu := unquote_quotes text
  generalize unquote text = other at hu
  cases h with
  | quoted h =>
    cases hu with
    | quoted h' =>
      rw [h] at h'
      simpa using h'
    | bare h' => exact absurd h (h' _)
  | bare h =>
    cases hu with
    | quoted h' => exact absurd h' (h _)
    | bare => rfl

theorem cutAtEquals?_eq_some_iff {text before after : List Char} :
    cutAtEquals? text = some (before, after) ↔ text = before ++ '=' :: after ∧ '=' ∉ before := by
  apply Iff.intro
  · intro h
    unfold cutAtEquals? at h
    split at h
    · cases h
    · rename_i c value hdrop
      have hc : c = '=' := by
        have hhead := List.head?_dropWhile_not (· ≠ '=') text
        rw [hdrop] at hhead
        simpa using hhead
      cases h
      subst hc
      refine ⟨?_, ?_⟩
      · rw [← hdrop, List.takeWhile_append_dropWhile]
      · intro hmem
        have := List.all_eq_true.mp List.all_takeWhile '=' hmem
        simp at this
  · intro h
    obtain ⟨rfl, hbefore⟩ := h
    have hpos : ∀ c ∈ before, decide (c ≠ '=') = true := by
      intro c hc
      rw [decide_eq_true_iff]
      intro heq
      exact hbefore (heq ▸ hc)
    unfold cutAtEquals?
    rw [List.dropWhile_append_of_pos hpos, List.takeWhile_append_of_pos hpos]
    simp

theorem ofChars_eq_header_iff : ofChars line = .header name ↔ Heads line name := by
  rw [heads_iff]
  unfold ofChars ofTrimmed
  by_cases hnothing : Text.trim line = [] ∨ (Text.trim line).head? = some '#'
  · rw [if_pos hnothing]
    rcases hnothing with h | h <;> simp [h]
  · rw [if_neg hnothing]
    by_cases hheader : (Text.trim line).head? = some '[' ∧ (Text.trim line).getLast? = some ']'
    · rw [if_pos hheader]
      simp [hheader]
    · rw [if_neg hheader]
      cases cutAtEquals? (Text.trim line) <;> simp [hheader]

theorem ofChars_eq_assignment_iff : ofChars line = .assignment key value ↔ Assigns line key value := by
  apply Iff.intro
  · intro h
    unfold ofChars ofTrimmed at h
    split at h
    · cases h
    · rename_i hnothing
      split at h
      · cases h
      · rename_i hheader
        split at h
        · cases h
        · rename_i before after hcut
          cases h
          obtain ⟨hline, hbefore⟩ := cutAtEquals?_eq_some_iff.mp hcut
          refine ⟨fun hremark => hnothing (Or.inr hremark), ?_, before, after, hline, hbefore, rfl,
            unquote_quotes _⟩
          intro name hname
          exact hheader (exists_heads_iff.mp ⟨name, hname⟩)
  · intro h
    obtain ⟨hremark, hheader, before, after, hline, hbefore, rfl, hvalue⟩ := h
    have hnothing : ¬ (Text.trim line = [] ∨ (Text.trim line).head? = some '#') := by
      rw [not_or]
      exact ⟨by simp [hline], hremark⟩
    have hbrackets : ¬ ((Text.trim line).head? = some '[' ∧ (Text.trim line).getLast? = some ']') := by
      intro hends
      obtain ⟨name, hname⟩ := exists_heads_iff.mpr hends
      exact hheader name hname
    unfold ofChars ofTrimmed
    rw [if_neg hnothing, if_neg hbrackets, cutAtEquals?_eq_some_iff.mpr ⟨hline, hbefore⟩, hvalue.eq_unquote]

instance : Decidable (Heads line name) :=
  decidable_of_iff _ ofChars_eq_header_iff

theorem ofChars_of_equals {before after : List Char} (hbefore : '=' ∉ before)
    (hremark : (Text.trim (before ++ '=' :: after)).head? ≠ some '#')
    (hheader : ∀ name, ¬ Heads (before ++ '=' :: after) name) :
    ofChars (before ++ '=' :: after) = .assignment (Text.trim before) (unquote (Text.trim after)) := by
  rw [ofChars_eq_assignment_iff]
  refine ⟨hremark, hheader, Text.trimStart before, Text.trimEnd after, ?_, ?_, ?_, ?_⟩
  · exact Text.trim_append_cons (by decide) before after
  · intro hmem
    exact hbefore ((List.dropWhile_suffix _).mem hmem)
  · exact Text.trim_trimStart before
  · rw [Text.trim_trimEnd]
    exact unquote_quotes _

theorem Heads.head?_trim (h : Heads line name) : (Text.trim line).head? = some '[' :=
  (heads_iff.mp h).1.1

end ConfigLine

namespace Setting

theorem key_ne_nil (s : Setting) : s.key.toList ≠ [] := by
  cases s <;> decide

theorem solid_key (s : Setting) : Text.Solid s.key.toList := by
  cases s <;> decide

theorem equals_not_mem_key (s : Setting) : '=' ∉ s.key.toList := by
  cases s <;> decide

end Setting

namespace ConfigLine

theorem equals_not_mem_blank {w : List Char} (h : Text.Blank w) : '=' ∉ w :=
  fun hmem => absurd (h '=' hmem) (by decide)

theorem ofChars_keyLine (s : Setting) {lead gap : List Char} (hlead : Text.Blank lead) (hgap : Text.Blank gap)
    (after : List Char) :
    ofChars (lead ++ s.key.toList ++ gap ++ '=' :: after) =
      .assignment s.key.toList (unquote (Text.trim after)) := by
  have hbefore : '=' ∉ lead ++ s.key.toList ++ gap := by
    simp [s.equals_not_mem_key, equals_not_mem_blank hlead, equals_not_mem_blank hgap]
  -- the first character that is not blank is the first one of the key
  have hhead : (Text.trim (lead ++ s.key.toList ++ gap ++ '=' :: after)).head? = s.key.toList.head? := by
    obtain ⟨c, rest, hkey⟩ := List.exists_cons_of_ne_nil s.key_ne_nil
    have hc : Text.isBlank c = false := s.solid_key c (by simp [hkey])
    rw [List.append_assoc, List.append_assoc, Text.trim_blank_append hlead, hkey, List.cons_append,
      Text.trim_cons_of_not_blank hc]
    rfl
  rw [ofChars_of_equals hbefore, Text.trim_around s.solid_key hlead hgap]
  · rw [hhead]
    cases s <;> decide
  · intro name hname
    have hbracket := hname.head?_trim
    rw [hhead] at hbracket
    exact absurd hbracket (by cases s <;> decide)

/-! ## Slices -/

/-- What a line says, when brackets and quotes are taken off by numbers of bytes. -/
def ofBytes? (line : List Char) : Option ConfigLine :=
  let line := Text.trim line
  if line = [] ∨ line.head? = some '#' then
    some nothing
  else if line.head? = some '[' ∧ line.getLast? = some ']' then
    (Text.slice? line 1 (Text.byteLength line - 1)).map fun name => header (Text.trim name)
  else
    match cutAtEquals? line with
    | none => some nothing
    | some (key, value) =>
      let value := Text.trim value
      if 2 ≤ Text.byteLength value ∧ value.head? = some '\x22' ∧ value.getLast? = some '\x22' then
        (Text.slice? value 1 (Text.byteLength value - 1)).map (assignment (Text.trim key))
      else
        some (assignment (Text.trim key) value)

theorem two_le_byteLength_iff {text : List Char} (hfirst : text.head? = some '\x22') :
    2 ≤ Text.byteLength text ↔ 2 ≤ text.length := by
  apply Iff.intro
  · intro h
    match text with
    | [] => cases hfirst
    | [c] =>
      cases hfirst
      exact absurd h (by decide)
    | c :: d :: rest => simp
  · intro h
    exact Nat.le_trans h (Text.length_le_byteLength text)

/-- **No character is cut in two.** Every slice that is taken of a line lies inside it. -/
theorem ofBytes?_eq_some (line : List Char) : ofBytes? line = some (ofChars line) := by
  unfold ofBytes? ofChars ofTrimmed
  generalize Text.trim line = line
  simp only
  by_cases hnothing : line = [] ∨ line.head? = some '#'
  · rw [if_pos hnothing, if_pos hnothing]
  · rw [if_neg hnothing, if_neg hnothing]
    by_cases hheader : line.head? = some '[' ∧ line.getLast? = some ']'
    · obtain ⟨hfirst, hlast⟩ := hheader
      have hlength := two_le_length_of_brackets hfirst hlast
      have hslice := Text.slice?_of_ends (by decide) (by decide) hlength hfirst hlast
      rw [if_pos ⟨hfirst, hlast⟩, if_pos ⟨hfirst, hlast⟩, hslice]
      rfl
    · rw [if_neg hheader, if_neg hheader]
      cases cutAtEquals? line with
      | none => rfl
      | some cut =>
        obtain ⟨key, value⟩ := cut
        simp only
        unfold unquote
        generalize Text.trim value = value
        by_cases hquotes : 2 ≤ value.length ∧ value.head? = some '\x22' ∧ value.getLast? = some '\x22'
        · obtain ⟨hlength, hfirst, hlast⟩ := hquotes
          have hslice := Text.slice?_of_ends (by decide) (by decide) hlength hfirst hlast
          rw [if_pos ⟨(two_le_byteLength_iff hfirst).mpr hlength, hfirst, hlast⟩,
            if_pos ⟨hlength, hfirst, hlast⟩, hslice]
          rfl
        · have hbytes : ¬ (2 ≤ Text.byteLength value ∧ value.head? = some '\x22' ∧ value.getLast? = some '\x22') := by
            intro h
            exact hquotes ⟨(two_le_byteLength_iff h.2.1).mp h.1, h.2⟩
          rw [if_neg hbytes, if_neg hquotes]

end ConfigLine

end Brainfuck
