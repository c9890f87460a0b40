import Brainfuck.Proofs.ConfigReading

/-!
# Configurations that are written out

A layer can be written out in many ways: other sections around the one called `engine`, the settings in
any order, remarks and other keys between them, blanks wherever they do not count, values with or
without quotes, names in any case. Every such text sets exactly what the layer sets
(`ConfigLayout.get_eq`).
-/

namespace Brainfuck

/-! ## Values -/

namespace Setting

def InRange : (s : Setting) → s.Value → Prop
  | tapeCells, n => Nat.lt n UInt64.size
  | cellWidth, _ => True
  | loopStrategy, _ => True
  | maxSteps, n => Nat.lt n UInt64.size
  | timeout, n => Nat.lt n UInt64.size

def Spells : (s : Setting) → s.Value → List Char → Prop
  | tapeCells, n, text => text = (Text.decimal n).toList
  | cellWidth, w, text => Named.fold text = Named.fold (Named.name (α := CellWidth) w).toList
  | loopStrategy, strategy, text => Named.fold text = Named.fold (Named.name (α := LoopStrategy) strategy).toList
  | maxSteps, n, text => text = (Text.decimal n).toList
  | timeout, n, text => text = (Text.decimal n).toList

theorem read?_of_spells {s : Setting} {v : s.Value} {text : List Char} (hv : s.InRange v)
    (h : s.Spells v text) : s.read? text = some v := by
  rw [read?_eq_some_iff]
  cases s with
  | tapeCells => rw [show text = _ from h]; exact Text.writes_decimal hv
  | cellWidth => exact h
  | loopStrategy => exact h
  | maxSteps => rw [show text = _ from h]; exact Text.writes_decimal hv
  | timeout => rw [show text = _ from h]; exact Text.writes_decimal hv

end Setting

theorem Text.toLower_of_isBlank {c : Char} (h : isBlank c = true) : c.toLower = c := by
  have hranges : ∀ r ∈ blankRanges, r.2 < 65 ∨ 90 < r.1 := by decide
  obtain ⟨r, hr, hc⟩ := List.any_eq_true.mp h
  have := hranges r hr
  simp only [Bool.and_eq_true, decide_eq_true_eq] at hc
  unfold Char.toLower
  rw [dif_neg]
  intro hletter
  simp only [ge_iff_le, UInt32.le_iff_toNat_le] at hletter
  have hlo : 65 ≤ c.toNat := hletter.1
  have hhi : c.toNat ≤ 90 := hletter.2
  omega

namespace Text

theorem solid_of_fold {text name : List Char} (h : Named.fold text = Named.fold name)
    (hname : Solid (Named.fold name)) : Solid text := by
  intro c hc
  cases hblank : isBlank c with
  | false => rfl
  | true =>
    have hmem : c.toLower ∈ Named.fold name := by
      rw [← h]
      exact List.mem_map_of_mem hc
    rw [toLower_of_isBlank hblank] at hmem
    exact absurd (hname c hmem) (by simp [hblank])

theorem quote_not_mem_of_fold {text name : List Char} (h : Named.fold text = Named.fold name)
    (hname : '\x22' ∉ Named.fold name) : '\x22' ∉ text := by
  intro hmem
  apply hname
  rw [← h]
  exact List.mem_map.mpr ⟨'\x22', hmem, by decide⟩

theorem solid_decimal (n : Nat) : Solid (decimal n).toList :=
  fun _ hc => isBlank_of_isDigit (isDigit_of_mem_decimal hc)

theorem quote_not_mem_decimal (n : Nat) : '\x22' ∉ (decimal n).toList :=
  fun h => absurd (isDigit_of_mem_decimal h) (by decide)

end Text

namespace Setting
variable {s : Setting} {v : s.Value} {text : List Char}

theorem decimal_or_name_of_spells (h : s.Spells v text) :
    (∃ n, text = (Text.decimal n).toList) ∨
      ∃ name, Named.fold text = Named.fold name ∧ Text.Solid (Named.fold name) ∧ '\x22' ∉ Named.fold name := by
  cases s with
  | tapeCells => exact Or.inl ⟨v, h⟩
  | cellWidth => exact Or.inr ⟨_, h, by cases v <;> decide⟩
  | loopStrategy => exact Or.inr ⟨_, h, by cases v <;> decide⟩
  | maxSteps => exact Or.inl ⟨v, h⟩
  | timeout => exact Or.inl ⟨v, h⟩

theorem solid_of_spells (h : s.Spells v text) : Text.Solid text ∧ '\x22' ∉ text := by
  rcases decimal_or_name_of_spells h with ⟨n, rfl⟩ | ⟨name, hfold, hsolid, hquote⟩
  · exact ⟨Text.solid_decimal n, Text.quote_not_mem_decimal n⟩
  · exact ⟨Text.solid_of_fold hfold hsolid, Text.quote_not_mem_of_fold hfold hquote⟩

end Setting

/-! ## Lines -/

namespace ConfigLine

def EngineHeader (line : List Char) : Prop :=
  ∃ w₁ w₂ w₃ w₄, Text.Blank (w₁ ++ w₂ ++ w₃ ++ w₄) ∧
    line = w₁ ++ '[' :: (w₂ ++ "engine".toList ++ w₃ ++ ']' :: w₄)

def FieldLine (s : Setting) (v : s.Value) (line : List Char) : Prop :=
  ∃ text value w₁ w₂ w₃ w₄, Text.Blank (w₁ ++ w₂ ++ w₃ ++ w₄) ∧
    s.Spells v text ∧ (value = text ∨ value = '\x22' :: (text ++ ['\x22'])) ∧
    line = w₁ ++ s.key.toList ++ w₂ ++ '=' :: (w₃ ++ value ++ w₄)

/-- A line that sets nothing wherever it stands: blanks, a remark, or a value for a key of no setting. -/
inductive Filler : List Char → Prop
  | blank {w : List Char} (hw : Text.Blank w) : Filler w
  | remark {w : List Char} (hw : Text.Blank w) (text : List Char) : Filler (w ++ '#' :: text)
  | unknown {before after : List Char} (hbefore : '=' ∉ before)
      (hkey : ∀ s : Setting, Text.trim before ≠ s.key.toList)
      (hheader : ∀ name, ¬ Heads (before ++ '=' :: after) name) : Filler (before ++ '=' :: after)

theorem EngineHeader.heads {line : List Char} (h : EngineHeader line) : Heads line "engine".toList := by
  obtain ⟨w₁, w₂, w₃, w₄, hblank, rfl⟩ := h
  simp only [Text.Blank, List.forall_mem_append] at hblank
  obtain ⟨⟨⟨h₁, h₂⟩, h₃⟩, h₄⟩ := hblank
  refine ⟨w₂ ++ "engine".toList ++ w₃, ?_, Text.trim_around (by decide) h₂ h₃⟩
  have hend : Text.trimEnd w₄ = [] := Text.trimEnd_append_blank h₄ []
  rw [Text.trim_blank_append h₁, Text.trim_cons_of_not_blank (by decide), Text.trimEnd_append_cons (by decide), hend]

theorem unquote_of_not_mem {text : List Char} (h : '\x22' ∉ text) : unquote text = text := by
  apply unquote_of_ends
  intro hends
  exact h (List.mem_of_head? hends.1)

theorem FieldLine.ofChars_eq {s : Setting} {v : s.Value} {line : List Char} (hv : s.InRange v)
    (h : FieldLine s v line) :
    ∃ value, ofChars line = .assignment s.key.toList value ∧ s.read? value = some v := by
  obtain ⟨text, value, w₁, w₂, w₃, w₄, hblank, hspells, hvalue, rfl⟩ := h
  simp only [Text.Blank, List.forall_mem_append] at hblank
  obtain ⟨⟨⟨h₁, h₂⟩, h₃⟩, h₄⟩ := hblank
  obtain ⟨hsolid, hquote⟩ := Setting.solid_of_spells hspells
  refine ⟨text, ?_, Setting.read?_of_spells hv hspells⟩
  rw [ofChars_keyLine s h₁ h₂]
  rcases hvalue with rfl | rfl
  · rw [Text.trim_around hsolid h₃ h₄, unquote_of_not_mem hquote]
  · have hquoted : Text.Solid ('\x22' :: (text ++ ['\x22'])) := by
      simp only [Text.Solid, List.forall_mem_cons, List.forall_mem_append]
      exact ⟨by decide, hsolid, by decide, nofun⟩
    rw [Text.trim_around hquoted h₃ h₄, ← Quotes.eq_unquote (.quoted rfl)]

theorem ofChars_blank {w : List Char} (h : Text.Blank w) : ofChars w = .nothing := by
  unfold ofChars
  rw [Text.trim_blank h]
  rfl

theorem ofChars_remark {w : List Char} (h : Text.Blank w) (text : List Char) :
    ofChars (w ++ '#' :: text) = .nothing := by
  unfold ofChars
  rw [Text.trim_blank_append h, Text.trim_cons_of_not_blank (by decide)]
  rfl

theorem Filler.ofChars_ne_header {line : List Char} (h : Filler line) (name : List Char) :
    ofChars line ≠ .header name := by
  cases h with
  | blank hw => rw [ofChars_blank hw]; simp
  | remark hw text => rw [ofChars_remark hw]; simp
  | unknown _ _ hheader =>
    intro heq
    exact hheader name (ofChars_eq_header_iff.mp heq)

theorem Filler.key_ne {line key value : List Char} (h : Filler line) (ha : ofChars line = .assignment key value)
    (s : Setting) : key ≠ s.key.toList := by
  cases h with
  | blank hw => rw [ofChars_blank hw] at ha; cases ha
  | remark hw text => rw [ofChars_remark hw] at ha; cases ha
  | unknown hbefore hkey hheader =>
    have hassigns := ofChars_eq_assignment_iff.mp ha
    rw [ofChars_of_equals hbefore hassigns.not_remark hheader] at ha
    cases ha
    exact hkey s

end ConfigLine

/-! ## Sections -/

namespace ConfigReading
variable {lines : List (List Char)} {r : ConfigReading} {key value : List Char}

theorem next_other_header {name : List Char} (h : name ≠ "engine".toList) :
    r.next (.header name) = { r with inEngine := false } := by
  change { r with inEngine := decide (name = "engine".toList) } = _
  rw [decide_eq_false h]

/-- Where no section called `engine` is read and none begins, nothing is set. -/
theorem foldl_next_outside (h : ∀ line ∈ lines, ¬ ConfigLine.Heads line "engine".toList)
    (hr : r.inEngine = false) : (lines.map ConfigLine.ofChars).foldl next r = r := by
  induction lines with
  | nil => rfl
  | cons line more ih =>
    simp only [List.forall_mem_cons] at h
    have hnext : r.next (ConfigLine.ofChars line) = r := by
      cases hline : ConfigLine.ofChars line with
      | nothing => rfl
      | header name =>
        have hname : name ≠ "engine".toList := by
          intro heq
          subst heq
          exact h.1 (ConfigLine.ofChars_eq_header_iff.mp hline)
        rw [next_other_header hname, ← hr]
      | assignment key value => simp [next, hr]
    rw [List.map_cons, List.foldl_cons, hnext, ih h.2]

theorem value?_foldl_eq_some (h : ((lines.map ConfigLine.ofChars).foldl next r).value? key = some value) :
    (∃ line ∈ lines, ConfigLine.ofChars line = .assignment key value) ∨ r.value? key = some value := by
  induction lines generalizing r with
  | nil => exact Or.inr h
  | cons line more ih =>
    rw [List.map_cons, List.foldl_cons] at h
    rcases ih h with ⟨line', hmem, hline'⟩ | hr
    · exact Or.inl ⟨line', List.mem_cons_of_mem _ hmem, hline'⟩
    · rcases (value?_next_eq_some_iff ..).mp hr with ⟨-, hline⟩ | ⟨-, hr⟩
      · exact Or.inl ⟨line, List.mem_cons_self .., hline⟩
      · exact Or.inr hr

theorem value?_foldl_eq_none (hlines : ∀ line ∈ lines, ∀ name, ConfigLine.ofChars line ≠ .header name)
    (hr : r.inEngine = true) (h : ((lines.map ConfigLine.ofChars).foldl next r).value? key = none) :
    (∀ line ∈ lines, ∀ value, ConfigLine.ofChars line ≠ .assignment key value) ∧ r.value? key = none := by
  induction lines generalizing r with
  | nil => exact ⟨nofun, h⟩
  | cons line more ih =>
    simp only [List.forall_mem_cons] at hlines ⊢
    rw [List.map_cons, List.foldl_cons] at h
    have hnext : (r.next (ConfigLine.ofChars line)).inEngine = true := by
      cases hline : ConfigLine.ofChars line with
      | nothing => exact hr
      | header name => exact absurd hline (hlines.1 name)
      | assignment key value => rw [inEngine_next_of_assignment, hr]
    obtain ⟨hmore, hvalue⟩ := ih hlines.2 hnext h
    obtain ⟨hline, hvalue⟩ := (value?_next_eq_none_iff ..).mp hvalue
    exact ⟨⟨fun value heq => hline value ⟨hr, heq⟩, hmore⟩, hvalue⟩

theorem value?_foldl_after (h : ∀ line ∈ lines, ¬ ConfigLine.Heads line "engine".toList)
    (hfirst : ∀ line, lines.head? = some line → ∃ name, ConfigLine.Heads line name) :
    ((lines.map ConfigLine.ofChars).foldl next r).value? key = r.value? key := by
  cases lines with
  | nil => rfl
  | cons line more =>
    simp only [List.forall_mem_cons] at h
    obtain ⟨name, hname⟩ := hfirst line rfl
    have hother : name ≠ "engine".toList := fun heq => h.1 (heq ▸ hname)
    have hnext : r.next (ConfigLine.ofChars line) = { r with inEngine := false } := by
      rw [ConfigLine.ofChars_eq_header_iff.mpr hname, next_other_header hother]
    rw [List.map_cons, List.foldl_cons, hnext, foldl_next_outside h.2 rfl]
    rfl

end ConfigReading

/-! ## Texts -/

/-- The text has these lines. Each ends with a line feed, or with a carriage return and a line feed; the last may
have no end. -/
inductive Text.Ended : List Char → List (List Char) → Prop
  | nil : Ended [] []
  | last {line : List Char} (h : '\n' ∉ line) : Ended line [line]
  | lf {line text : List Char} {lines : List (List Char)} (h : '\n' ∉ line) (rest : Ended text lines) :
      Ended (line ++ '\n' :: text) (line :: lines)
  | crlf {line text : List Char} {lines : List (List Char)} (h : '\n' ∉ line) (rest : Ended text lines) :
      Ended (line ++ '\r' :: '\n' :: text) (line :: lines)

theorem ConfigLine.ofChars_append_return (line : List Char) : ofChars (line ++ ['\r']) = ofChars line := by
  unfold ofChars
  rw [Text.trim_append_blank (by decide)]

theorem ConfigReading.ofText_of_ended {text : List Char} {lines : List (List Char)} (h : Text.Ended text lines) :
    ofText text = ofLines lines := by
  unfold ofText ofLines
  generalize start = r
  induction h generalizing r with
  | nil => rfl
  | last h => rw [Text.lines_of_not_mem h]
  | lf h _ ih => rw [Text.lines_append h, List.map_cons, List.map_cons, List.foldl_cons, List.foldl_cons, ih]
  | @crlf line text lines h _ ih =>
    have hreturn : '\n' ∉ line ++ ['\r'] := by simp [h]
    have hlines := Text.lines_append hreturn text
    rw [List.append_assoc, List.singleton_append] at hlines
    rw [hlines, List.map_cons, List.map_cons, List.foldl_cons, List.foldl_cons, ConfigLine.ofChars_append_return, ih]

/-- The lines write out a layer: a section called `engine` with a line for each setting that is set, and other
sections before and behind it. -/
structure ConfigLayout (l : Layer) (before : List (List Char)) (header : List Char)
    (body after : List (List Char)) : Prop where
  others_before : ∀ line ∈ before, ¬ ConfigLine.Heads line "engine".toList
  engine : ConfigLine.EngineHeader header
  sound : ∀ line ∈ body, ConfigLine.Filler line ∨ ∃ s v, l.get s = some v ∧ ConfigLine.FieldLine s v line
  complete : ∀ s v, l.get s = some v → ∃ line ∈ body, ConfigLine.FieldLine s v line
  others_after : ∀ line ∈ after, ¬ ConfigLine.Heads line "engine".toList
  section_after : ∀ line, after.head? = some line → ∃ name, ConfigLine.Heads line name

namespace ConfigLayout
variable {l : Layer} {before body after : List (List Char)} {header : List Char}

theorem value?_eq (h : ConfigLayout l before header body after) (key : List Char) :
    (ConfigReading.ofLines (before ++ header :: (body ++ after))).value? key =
      (ConfigReading.since true body).value? key := by
  have hbefore : ConfigReading.ofLines before = ConfigReading.start :=
    ConfigReading.foldl_next_outside h.others_before rfl
  have hheader := ConfigLine.ofChars_eq_header_iff.mpr h.engine.heads
  rw [ConfigReading.ofLines_append, hbefore, List.map_cons, List.foldl_cons, hheader, List.map_append,
    List.foldl_append, ConfigReading.value?_foldl_after h.others_after h.section_after]
  simp only [ConfigReading.next, decide_true]
  rfl

theorem ofChars_ne_header (h : ConfigLayout l before header body after)
    (hrange : ∀ s v, l.get s = some v → s.InRange v) :
    ∀ line ∈ body, ∀ name, ConfigLine.ofChars line ≠ .header name := by
  intro line hmem name
  rcases h.sound line hmem with hfiller | ⟨s, v, hv, hfield⟩
  · exact hfiller.ofChars_ne_header name
  · obtain ⟨value, hvalue, -⟩ := hfield.ofChars_eq (hrange s v hv)
    rw [hvalue]
    simp

theorem get_eq (h : ConfigLayout l before header body after) (hrange : ∀ s v, l.get s = some v → s.InRange v)
    (s : Setting) :
    ((ConfigReading.ofLines (before ++ header :: (body ++ after))).value? s.key.toList).bind s.read? = l.get s := by
  rw [h.value?_eq]
  cases hvalue : (ConfigReading.since true body).value? s.key.toList with
  | some value =>
    rcases ConfigReading.value?_foldl_eq_some hvalue with ⟨line, hmem, hline⟩ | hnone
    · rcases h.sound line hmem with hfiller | ⟨t, v, hv, hfield⟩
      · exact absurd rfl (hfiller.key_ne hline s)
      · obtain ⟨value', hline', hread⟩ := hfield.ofChars_eq (hrange t v hv)
        rw [hline] at hline'
        injection hline' with hkey hsame
        cases Setting.key_inj hkey
        rw [hsame, hv]
        exact hread
    · cases hnone
  | none =>
    cases hv : l.get s with
    | none => rfl
    | some v =>
      obtain ⟨line, hmem, hfield⟩ := h.complete s v hv
      obtain ⟨value, hline, -⟩ := hfield.ofChars_eq (hrange s v hv)
      have hno := ConfigReading.value?_foldl_eq_none (h.ofChars_ne_header hrange) rfl hvalue
      exact absurd hline (hno.1 line hmem value)

end ConfigLayout

/-- **A configuration that is written out is read back.** -/
theorem Layer.ofConfig_written {l : Layer} {before body after : List (List Char)} {header : List Char}
    {text : String} (hrange : ∀ s v, l.get s = some v → s.InRange v)
    (hlayout : ConfigLayout l before header body after)
    (htext : Text.Ended text.toList (before ++ header :: (body ++ after))) : Layer.ofConfig text = l := by
  apply Layer.ext_get
  intro s
  unfold Layer.ofConfig
  rw [Layer.get_ofTexts, ConfigReading.ofText_of_ended htext]
  exact hlayout.get_eq hrange s

theorem Layer.ofConfig_written_mixed_case :
    let l : Layer := { Layer.empty with cellWidth := some .word, maxSteps := some 18446744073709551615 }
    let body := ["# remark".toList, "cell_width = \"WoRd\"".toList, "x = 1".toList,
      " max_steps\t=18446744073709551615".toList]
    ConfigLayout l ["[other]".toList] "[ engine ]".toList body ["[last]".toList] ∧
      Layer.ofConfig
        "[other]\r\n[ engine ]\n# remark\ncell_width = \"WoRd\"\nx = 1\n max_steps\t=18446744073709551615\n[last]" = l := by
  intro l body
  have hword : Setting.cellWidth.Spells .word "WoRd".toList :=
    show Named.fold "WoRd".toList = Named.fold "word".toList by decide
  have hlargest : Setting.maxSteps.Spells (18446744073709551615 : Nat) "18446744073709551615".toList :=
    show "18446744073709551615".toList = (Text.decimal 18446744073709551615).toList by decide
  have hwidth : ConfigLine.FieldLine .cellWidth .word "cell_width = \"WoRd\"".toList :=
    ⟨_, _, [], [' '], [' '], [], by decide, hword, Or.inr rfl, by decide⟩
  have hsteps : ConfigLine.FieldLine .maxSteps (18446744073709551615 : Nat) " max_steps\t=18446744073709551615".toList :=
    ⟨_, _, [' '], ['\t'], [], [], by decide, hlargest, Or.inl rfl, by decide⟩
  have hremark : ConfigLine.Filler ([] ++ '#' :: " remark".toList) := .remark (by decide) _
  have hother : ConfigLine.Filler ("x ".toList ++ '=' :: " 1".toList) := by
    refine .unknown (by decide) ?_ ?_
    · intro s
      cases s <;> decide
    · intro name hname
      exact absurd hname.head?_trim (by decide)
  have hlayout : ConfigLayout l ["[other]".toList] "[ engine ]".toList body ["[last]".toList] := {
    others_before := by decide
    engine := ⟨[], [' '], [' '], [], by decide, by decide⟩
    sound := by
      simp only [body, List.forall_mem_cons]
      exact ⟨Or.inl hremark, Or.inr ⟨.cellWidth, .word, rfl, hwidth⟩, Or.inl hother,
        Or.inr ⟨.maxSteps, _, rfl, hsteps⟩, nofun⟩
    complete := by
      intro s v hv
      cases s with
      | cellWidth => cases hv; exact ⟨_, by simp [body], hwidth⟩
      | maxSteps => cases hv; exact ⟨_, by simp [body], hsteps⟩
      | _ => cases hv
    others_after := by decide
    section_after := by
      intro line hline
      cases hline
      exact ⟨"last".toList, by decide⟩ }
  have hrange : ∀ s v, l.get s = some v → s.InRange v := by
    intro s v hv
    cases s with
    | cellWidth => trivial
    | loopStrategy => trivial
    | maxSteps => cases hv; exact (by decide : 18446744073709551615 < UInt64.size)
    | _ => cases hv
  have htext : Text.Ended ("[other]".toList ++ '\r' :: '\n' :: ("[ engine ]".toList ++ '\n' ::
      ("# remark".toList ++ '\n' :: ("cell_width = \"WoRd\"".toList ++ '\n' :: ("x = 1".toList ++ '\n' ::
      (" max_steps\t=18446744073709551615".toList ++ '\n' :: "[last]".toList))))))
      (["[other]".toList] ++ "[ engine ]".toList :: (body ++ ["[last]".toList])) :=
    .crlf (by decide) (.lf (by decide) (.lf (by decide) (.lf (by decide) (.lf (by decide) (.lf (by decide)
      (.last (by decide)))))))
  refine ⟨hlayout, Layer.ofConfig_written hrange hlayout ?_⟩
  simpa using htext

end Brainfuck
