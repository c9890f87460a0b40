import Brainfuck.Proofs.ConfigLines
import Brainfuck.Proofs.Fields

/-!
# What a configuration sets

Reading goes through the lines once, with the section in mind and the assignments seen so far. What
comes out can be told from the lines as a whole: a setting has the value of the last line that
assigns its key in a section called `engine` (`ConfigReading.value?_ofText_iff`). So a line with a
value that cannot be read hides an earlier one that can (`ConfigReading.value?_insert`).
-/

namespace Brainfuck

/-- Of the places before `i` where something holds, it holds of `a` at the last. -/
def LastBefore {α : Type} (holds : Nat → α → Prop) (i : Nat) (a : α) : Prop :=
  ∃ j, j < i ∧ holds j a ∧ ∀ k, j < k → k < i → ∀ b, ¬ holds k b

section
variable {α : Type} {holds : Nat → α → Prop} {i : Nat} {a : α}

theorem not_lastBefore_zero : ¬ LastBefore holds 0 a := by
  intro h
  obtain ⟨j, hj, -⟩ := h
  exact absurd hj (Nat.not_lt_zero j)

theorem lastBefore_succ :
    LastBefore holds (i + 1) a ↔ holds i a ∨ (∀ b, ¬ holds i b) ∧ LastBefore holds i a := by
  apply Iff.intro
  · intro h
    obtain ⟨j, hj, ha, hlast⟩ := h
    by_cases hij : j = i
    · subst hij
      exact Or.inl ha
    · have hlt : j < i := by omega
      refine Or.inr ⟨hlast i hlt (Nat.lt_succ_self i), j, hlt, ha, ?_⟩
      intro k hjk hki
      exact hlast k hjk (by omega)
  · intro h
    rcases h with ha | ⟨hno, j, hj, ha, hlast⟩
    · exact ⟨i, Nat.lt_succ_self i, ha, fun k hik hki => absurd hki (by omega)⟩
    · refine ⟨j, by omega, ha, ?_⟩
      intro k hjk hki
      by_cases hk : k = i
      · subst hk
        exact hno
      · exact hlast k hjk (by omega)

end

namespace ConfigReading

/-! ## Sections and assignments -/

def HeadsAt (lines : List (List Char)) (i : Nat) (name : List Char) : Prop :=
  ∃ line, lines[i]? = some line ∧ ConfigLine.Heads line name

def InEngine (lines : List (List Char)) (i : Nat) : Prop :=
  LastBefore (HeadsAt lines) i "engine".toList

def SetsAt (lines : List (List Char)) (key : List Char) (i : Nat) (value : List Char) : Prop :=
  InEngine lines i ∧ ∃ line, lines[i]? = some line ∧ ConfigLine.Assigns line key value

def ofLines (lines : List (List Char)) : ConfigReading :=
  (lines.map ConfigLine.ofChars).foldl next start

section
variable {lines : List (List Char)} {line key value : List Char} {i : Nat}

theorem headsAt_iff (h : lines[i]? = some line) (name : List Char) :
    HeadsAt lines i name ↔ ConfigLine.ofChars line = .header name := by
  rw [ConfigLine.ofChars_eq_header_iff]
  simp [HeadsAt, h]

theorem setsAt_iff (h : lines[i]? = some line) (key value : List Char) :
    SetsAt lines key i value ↔ InEngine lines i ∧ ConfigLine.ofChars line = .assignment key value := by
  rw [ConfigLine.ofChars_eq_assignment_iff]
  simp [SetsAt, h]

theorem inEngine_succ_iff (h : lines[i]? = some line) :
    InEngine lines (i + 1) ↔ ConfigLine.ofChars line = .header "engine".toList ∨
      (∀ name, ConfigLine.ofChars line ≠ .header name) ∧ InEngine lines i := by
  unfold InEngine
  rw [lastBefore_succ]
  simp only [headsAt_iff h, ne_eq]

theorem ofLines_append (lines more : List (List Char)) :
    ofLines (lines ++ more) = (more.map ConfigLine.ofChars).foldl next (ofLines lines) := by
  simp [ofLines]

theorem ofLines_take_succ (h : lines[i]? = some line) :
    ofLines (lines.take (i + 1)) = (ofLines (lines.take i)).next (ConfigLine.ofChars line) := by
  rw [List.take_add_one, h, ofLines_append]
  rfl

theorem inEngine_next_of_assignment (r : ConfigReading) (key value : List Char) :
    (r.next (.assignment key value)).inEngine = r.inEngine := by
  by_cases hr : r.inEngine = true
  · simp [next, hr]
  · simp [next, hr]

/-- The flag that is kept while reading tells the section. -/
theorem inEngine_take_iff (hi : i ≤ lines.length) :
    (ofLines (lines.take i)).inEngine = true ↔ InEngine lines i := by
  induction i with
  | zero => exact iff_of_false (by simp [ofLines, start]) not_lastBefore_zero
  | succ i ih =>
    have hline := List.getElem?_eq_getElem hi
    have hprev := ih (Nat.le_of_succ_le hi)
    rw [ofLines_take_succ hline, inEngine_succ_iff hline]
    cases ConfigLine.ofChars lines[i] with
    | nothing => simp [next, hprev]
    | header name =>
      have hheader : ¬ ∀ other, ConfigLine.header name ≠ .header other := fun h => h name rfl
      simp only [next, decide_eq_true_iff, ConfigLine.header.injEq, hheader, false_and, or_false]
    | assignment key value => simp [inEngine_next_of_assignment, hprev]

theorem value?_next_eq_some_iff (r : ConfigReading) (l : ConfigLine) :
    (r.next l).value? key = some value ↔
      (r.inEngine = true ∧ l = .assignment key value) ∨
        (∀ v, ¬ (r.inEngine = true ∧ l = .assignment key v)) ∧ r.value? key = some value := by
  cases l with
  | nothing => simp [next]
  | header name => simp [next, value?]
  | assignment key' value' =>
    by_cases hr : r.inEngine = true
    · by_cases hkey : key = key'
      · subst hkey
        simp [next, hr, value?]
      · have hother : (key == key') = false := by simpa using hkey
        simp [next, hr, value?, Ne.symm hkey, List.lookup_cons, hother]
    · simp [next, hr]

theorem value?_next_eq_none_iff (r : ConfigReading) (l : ConfigLine) :
    (r.next l).value? key = none ↔
      (∀ v, ¬ (r.inEngine = true ∧ l = .assignment key v)) ∧ r.value? key = none := by
  simp only [Option.eq_none_iff_forall_ne_some, ne_eq, value?_next_eq_some_iff]
  apply Iff.intro
  · intro h
    have hno : ∀ v, ¬ (r.inEngine = true ∧ l = .assignment key v) := fun v hv => h v (Or.inl hv)
    exact ⟨hno, fun v hv => h v (Or.inr ⟨hno, hv⟩)⟩
  · intro h v hv
    rcases hv with hv | ⟨-, hv⟩
    · exact h.1 v hv
    · exact h.2 v hv

/-- The assignments that are kept while reading tell the last one of each key. -/
theorem value?_take_iff (hi : i ≤ lines.length) :
    (ofLines (lines.take i)).value? key = some value ↔ LastBefore (SetsAt lines key) i value := by
  induction i with
  | zero => exact iff_of_false (by simp [ofLines, start, value?]) not_lastBefore_zero
  | succ i ih =>
    have hline := List.getElem?_eq_getElem hi
    have hengine := inEngine_take_iff (Nat.le_of_succ_le hi)
    rw [ofLines_take_succ hline, value?_next_eq_some_iff, lastBefore_succ]
    simp only [setsAt_iff hline, ← hengine, ← ih (Nat.le_of_succ_le hi)]

end

theorem value?_ofText_iff {text key value : List Char} :
    (ofText text).value? key = some value ↔
      LastBefore (SetsAt (Text.lines text) key) (Text.lines text).length value := by
  rw [← value?_take_iff (Nat.le_refl _), List.take_length]
  rfl

def ofBytes? (text : List Char) : Option ConfigReading :=
  ((Text.lines text).mapM ConfigLine.ofBytes?).map fun lines => lines.foldl next start

theorem ofBytes?_eq_some (text : List Char) : ofBytes? text = some (ofText text) := by
  have hlines : (Text.lines text).mapM ConfigLine.ofBytes? = some ((Text.lines text).map ConfigLine.ofChars) := by
    induction Text.lines text with
    | nil => rfl
    | cons line more ih => simp [List.mapM_cons, ConfigLine.ofBytes?_eq_some, ih]
  unfold ofBytes?
  rw [hlines]
  rfl

end ConfigReading

/-- **What a configuration sets.** A setting is set to a value exactly when the last line that assigns its key
in a section called `engine` writes that value. No text makes the reading fail. -/
theorem Layer.ofConfig_last_assignment (text : String) :
    (∀ (s : Setting) (v : s.Value),
      (Layer.ofConfig text).get s = some v ↔
        ∃ value,
          LastBefore (ConfigReading.SetsAt (Text.lines text.toList) s.key.toList)
            (Text.lines text.toList).length value ∧
          s.Writes value v) ∧
    ConfigReading.ofBytes? text.toList = some (ConfigReading.ofText text.toList) := by
  refine ⟨?_, ConfigReading.ofBytes?_eq_some text.toList⟩
  intro s v
  unfold Layer.ofConfig
  rw [Layer.get_ofTexts, Option.bind_eq_some_iff]
  simp only [ConfigReading.value?_ofText_iff, Setting.read?_eq_some_iff]

/-! ## A line put in -/

namespace ConfigReading

def withOlder (r : ConfigReading) (older : List (List Char × List Char)) : ConfigReading :=
  { r with assignments := r.assignments ++ older }

/-- What is read of lines that follow others, the assignments of those left out. -/
def since (inEngine : Bool) (lines : List (List Char)) : ConfigReading :=
  (lines.map ConfigLine.ofChars).foldl next { inEngine, assignments := [] }

section
variable {front back : List (List Char)} {line key value : List Char}

theorem next_withOlder (r : ConfigReading) (older : List (List Char × List Char)) (l : ConfigLine) :
    (r.withOlder older).next l = (r.next l).withOlder older := by
  cases l with
  | nothing => rfl
  | header name => rfl
  | assignment key value =>
    by_cases hr : r.inEngine = true
    · simp [next, withOlder, hr]
    · simp [next, withOlder, hr]

theorem foldl_next_withOlder (lines : List ConfigLine) (r : ConfigReading) (older : List (List Char × List Char)) :
    lines.foldl next (r.withOlder older) = (lines.foldl next r).withOlder older := by
  induction lines generalizing r with
  | nil => rfl
  | cons l more ih => rw [List.foldl_cons, next_withOlder, ih, List.foldl_cons]

theorem value?_withOlder (r : ConfigReading) (older : List (List Char × List Char)) (key : List Char) :
    (r.withOlder older).value? key = (r.value? key).or (older.lookup key) :=
  List.lookup_append

theorem foldl_next_eq (r : ConfigReading) (lines : List (List Char)) :
    (lines.map ConfigLine.ofChars).foldl next r = (since r.inEngine lines).withOlder r.assignments := by
  unfold since
  rw [← foldl_next_withOlder]
  rfl

theorem ofLines_append_eq (front back : List (List Char)) :
    ofLines (front ++ back) = (since (ofLines front).inEngine back).withOlder (ofLines front).assignments := by
  rw [ofLines_append, foldl_next_eq]

theorem ofLines_insert_outside (h : ConfigLine.ofChars line = .assignment key value)
    (hr : (ofLines front).inEngine = false) : ofLines (front ++ line :: back) = ofLines (front ++ back) := by
  have hnext : (ofLines front).next (.assignment key value) = ofLines front := by simp [next, hr]
  rw [ofLines_append, ofLines_append, List.map_cons, List.foldl_cons, h, hnext]

theorem ofLines_insert_inside (h : ConfigLine.ofChars line = .assignment key value)
    (hr : (ofLines front).inEngine = true) :
    ofLines (front ++ line :: back) = (since true back).withOlder ((key, value) :: (ofLines front).assignments) := by
  rw [ofLines_append, List.map_cons, List.foldl_cons, h, foldl_next_eq]
  simp [next, hr]

def SetsAgain (front back : List (List Char)) (key : List Char) : Prop :=
  ∃ j value, SetsAt (front ++ back) key (front.length + j) value

theorem since_take_succ {i : Nat} (inEngine : Bool) (h : back[i]? = some line) :
    since inEngine (back.take (i + 1)) = (since inEngine (back.take i)).next (ConfigLine.ofChars line) := by
  simp [since, List.take_add_one, h]

theorem since_take_inEngine_iff {i : Nat} (hi : i ≤ back.length) :
    (since (ofLines front).inEngine (back.take i)).inEngine = true ↔
      InEngine (front ++ back) (front.length + i) := by
  have htake : (front ++ back).take (front.length + i) = front ++ back.take i := List.take_length_add_append i
  rw [← inEngine_take_iff (by simpa using hi), htake, ofLines_append_eq]
  rfl

theorem since_take_eq_none_iff {i : Nat} (hi : i ≤ back.length) :
    (since (ofLines front).inEngine (back.take i)).value? key = none ↔
      ∀ j, j < i → ∀ value, ¬ SetsAt (front ++ back) key (front.length + j) value := by
  induction i with
  | zero => simp [since, value?]
  | succ i ih =>
    have hline := List.getElem?_eq_getElem hi
    have hplace : (front ++ back)[front.length + i]? = some back[i] := by
      rw [List.getElem?_append_right (Nat.le_add_right ..), Nat.add_sub_cancel_left, hline]
    have hengine : (since (ofLines front).inEngine (back.take i)).inEngine = true ↔ _ :=
      since_take_inEngine_iff (Nat.le_of_succ_le hi)
    rw [since_take_succ _ hline, value?_next_eq_none_iff, ih (Nat.le_of_succ_le hi)]
    simp only [Nat.lt_succ_iff_lt_or_eq, or_imp, forall_and, forall_eq, setsAt_iff hplace, ← hengine]
    exact and_comm

theorem since_eq_none_iff :
    (since (ofLines front).inEngine back).value? key = none ↔ ¬ SetsAgain front back key := by
  have h : (since (ofLines front).inEngine (back.take back.length)).value? key = none ↔ _ :=
    since_take_eq_none_iff (Nat.le_refl back.length)
  rw [List.take_length] at h
  rw [h]
  apply Iff.intro
  · intro hno hagain
    obtain ⟨j, value, hsets⟩ := hagain
    obtain ⟨line, hline, -⟩ := hsets.2
    have hj := (List.getElem?_eq_some_iff.mp hline).1
    rw [List.length_append] at hj
    exact hno j (by omega) value hsets
  · intro hno j _ value hsets
    exact hno ⟨j, value, hsets⟩

theorem value?_insert_of_ne (h : ConfigLine.ofChars line = .assignment key value) {key' : List Char}
    (hne : key' ≠ key) : (ofLines (front ++ line :: back)).value? key' = (ofLines (front ++ back)).value? key' := by
  cases hr : (ofLines front).inEngine with
  | false => rw [ofLines_insert_outside h hr]
  | true =>
    have hother : (key' == key) = false := by simpa using hne
    rw [ofLines_insert_inside h hr, ofLines_append_eq, hr, value?_withOlder, value?_withOlder, List.lookup_cons, hother]

/-- A line put in where a section called `engine` is read hides what was assigned before, unless
its key is assigned again. -/
theorem value?_insert (h : ConfigLine.ofChars line = .assignment key value)
    (hin : InEngine front front.length) (hlast : ¬ SetsAgain front back key) :
    (ofLines (front ++ line :: back)).value? key = some value := by
  have hr := (inEngine_take_iff (Nat.le_refl _)).mpr hin
  have hnone := since_eq_none_iff.mpr hlast
  rw [List.take_length] at hr
  rw [hr] at hnone
  rw [ofLines_insert_inside h hr, value?_withOlder, hnone]
  simp

theorem value?_insert_of_again (h : ConfigLine.ofChars line = .assignment key value)
    (hagain : ¬ InEngine front front.length ∨ SetsAgain front back key) :
    (ofLines (front ++ line :: back)).value? key = (ofLines (front ++ back)).value? key := by
  have hengine := inEngine_take_iff (Nat.le_refl front.length)
  rw [List.take_length] at hengine
  cases hr : (ofLines front).inEngine with
  | false => rw [ofLines_insert_outside h hr]
  | true =>
    rcases hagain with hout | hagain
    · exact absurd (hengine.mp hr) hout
    · -- what follows has a value of its own
      obtain ⟨w, hw⟩ := Option.ne_none_iff_exists'.mp fun hnone => since_eq_none_iff.mp hnone hagain
      rw [hr] at hw
      rw [ofLines_insert_inside h hr, ofLines_append_eq, hr, value?_withOlder, value?_withOlder, hw]
      rfl

def textOf (lines : List (List Char)) : String :=
  String.ofList (lines.flatMap (· ++ ['\n']))

theorem ofText_textOf {lines : List (List Char)} (h : ∀ line ∈ lines, '\n' ∉ line) :
    ofText (textOf lines).toList = ofLines lines := by
  unfold ofText textOf
  rw [String.toList_ofList, Text.lines_flatMap h, List.map_append, List.foldl_append]
  rfl

end

end ConfigReading

theorem Setting.key_inj {s t : Setting} (h : s.key.toList = t.key.toList) : s = t := by
  revert h
  cases s <;> cases t <;> decide

theorem ConfigLine.ofChars_key_equals (s : Setting) (v : List Char) :
    ofChars (s.key.toList ++ " = ".toList ++ v) = .assignment s.key.toList (unquote (Text.trim v)) := by
  have hline : s.key.toList ++ " = ".toList ++ v = [] ++ s.key.toList ++ [' '] ++ '=' :: (' ' :: v) := by simp
  rw [hline, ofChars_keyLine s (by decide) (by decide), Text.trim_cons (by decide)]

theorem Setting.newline_not_mem_key (s : Setting) : '\n' ∉ s.key.toList := by
  cases s <;> decide

theorem Layer.get_ofConfig_textOf {lines : List (List Char)} (h : ∀ line ∈ lines, '\n' ∉ line) (s : Setting) :
    (Layer.ofConfig (ConfigReading.textOf lines)).get s =
      ((ConfigReading.ofLines lines).value? s.key.toList).bind s.read? := by
  unfold Layer.ofConfig
  rw [Layer.get_ofTexts, ConfigReading.ofText_textOf h]

/-- **A value that cannot be read hides an earlier one.** A line that gives a setting such a value leaves all as
it is when it is not in a section called `engine`, or the key is assigned again below it, or the setting
was not set. Otherwise it unsets that setting, and no other. -/
theorem Layer.malformed_line_hides (front back : List (List Char)) (s : Setting) (v : List Char)
    (hlines : ∀ line ∈ front ++ back, '\n' ∉ line) (hv : '\n' ∉ v)
    (hbad : ∀ value x, ConfigLine.Quotes (Text.trim v) value → ¬ s.Writes value x) :
    let before := Layer.ofConfig (ConfigReading.textOf (front ++ back))
    let after := Layer.ofConfig (ConfigReading.textOf (front ++ (s.key.toList ++ " = ".toList ++ v) :: back))
    (after = before ↔ ¬ ConfigReading.InEngine front front.length ∨
      ConfigReading.SetsAgain front back s.key.toList ∨ before.get s = none) ∧
    (after ≠ before → after.get s = none ∧ ∀ t, t ≠ s → after.get t = before.get t) := by
  intro before after
  have hassigns := ConfigLine.ofChars_key_equals s v
  have hunread : s.read? (ConfigLine.unquote (Text.trim v)) = none := by
    rw [Option.eq_none_iff_forall_ne_some]
    intro x hx
    exact hbad _ x (ConfigLine.unquote_quotes _) (Setting.read?_eq_some_iff.mp hx)
  have hall : ∀ line ∈ front ++ (s.key.toList ++ " = ".toList ++ v) :: back, '\n' ∉ line := by
    intro line hmem
    rcases List.mem_append.mp hmem with hmem | hmem
    · exact hlines line (List.mem_append_left _ hmem)
    · rcases List.mem_cons.mp hmem with rfl | hmem
      · simp [s.newline_not_mem_key, hv]
      · exact hlines line (List.mem_append_right _ hmem)
  have hbefore := Layer.get_ofConfig_textOf hlines
  have hafter := Layer.get_ofConfig_textOf hall
  have hother : ∀ t, t ≠ s → after.get t = before.get t := by
    intro t hts
    have hkey : t.key.toList ≠ s.key.toList := fun h => hts (Setting.key_inj h)
    rw [hafter, hbefore, ConfigReading.value?_insert_of_ne hassigns hkey]
  by_cases hsame : ¬ ConfigReading.InEngine front front.length ∨
      ConfigReading.SetsAgain front back s.key.toList
  · have heq : after = before := by
      apply Layer.ext_get
      intro t
      by_cases hts : t = s
      · rw [hts, hafter, hbefore, ConfigReading.value?_insert_of_again hassigns hsame]
      · exact hother t hts
    refine ⟨iff_of_true heq ?_, fun hne => absurd heq hne⟩
    rcases hsame with hout | hagain
    · exact Or.inl hout
    · exact Or.inr (Or.inl hagain)
  · rw [not_or, Classical.not_not] at hsame
    have hnone : after.get s = none := by
      rw [hafter, ConfigReading.value?_insert hassigns hsame.1 hsame.2]
      exact hunread
    refine ⟨⟨?_, ?_⟩, fun _ => ⟨hnone, hother⟩⟩
    · intro heq
      rw [← heq]
      exact Or.inr (Or.inr hnone)
    · intro h
      rcases h with hout | hagain | hunset
      · exact absurd hsame.1 hout
      · exact absurd hagain hsame.2
      · apply Layer.ext_get
        intro t
        by_cases hts : t = s
        · rw [hts, hnone, hunset]
        · exact hother t hts

theorem Layer.malformed_line_hides_five :
    let front := ["[engine]".toList, "tape_cells = 5".toList]
    let back := ["max_steps = 7".toList]
    let before := Layer.ofConfig (ConfigReading.textOf (front ++ back))
    let after := Layer.ofConfig (ConfigReading.textOf (front ++ "tape_cells = lots".toList :: back))
    (∀ value x, ConfigLine.Quotes "lots".toList value → ¬ Setting.tapeCells.Writes value x) ∧
      after ≠ before ∧ after.get .tapeCells = none ∧ after.get .maxSteps = before.get .maxSteps := by
  intro front back before after
  have hbad : ∀ value x, ConfigLine.Quotes "lots".toList value → ¬ Setting.tapeCells.Writes value x := by
    intro value x hvalue hwrites
    have hunread : Setting.tapeCells.read? (ConfigLine.unquote "lots".toList) = none := by decide
    rw [hvalue.eq_unquote, ← Setting.read?_eq_some_iff, hunread] at hwrites
    cases hwrites
  have h := Layer.malformed_line_hides front back .tapeCells "lots".toList (by decide) (by decide) hbad
  have hne : after ≠ before := by decide
  exact ⟨hbad, hne, (h.2 hne).1, (h.2 hne).2 .maxSteps (by decide)⟩

theorem Layer.malformed_line_loses_five :
    Setting.tapeCells.read? "lots".toList = none ∧
      Layer.ofConfig "[engine]\ntape_cells = 5\nmax_steps = 7\n" =
        { Layer.empty with tapeCells := some 5, maxSteps := some 7 } ∧
      Layer.ofConfig "[engine]\ntape_cells = 5\ntape_cells = lots\nmax_steps = 7\n" =
        { Layer.empty with maxSteps := some 7 } := by
  decide

end Brainfuck
