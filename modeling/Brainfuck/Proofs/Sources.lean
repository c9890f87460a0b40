import Brainfuck.Proofs.ConfigReading
import Brainfuck.Settings.Resolve

/-!
# Where settings come from

The environment and the configuration read a value alike: a variable says of its setting what a line with
that value says of it, quotes apart (`Layer.get_ofEnvironment_only`, `Layer.get_ofConfig_line`). However layers
are grouped, a setting has the value of the first layer that sets it (`Layering.get_merged`), and so the
settings of a command line are told setting by setting from its three sources
(`ConfigContent.get_resolve`).
-/

namespace Brainfuck

/-! ## One value in the environment or in a configuration -/

def Environment.only (name value : String) : Environment :=
  fun other => if other = name then some value else none

theorem Setting.envName_inj {s t : Setting} (h : s.envName = t.envName) : s = t := by
  revert h
  cases s <;> cases t <;> decide

namespace Layer

theorem get_ofEnvironment (env : Environment) (s : Setting) :
    (ofEnvironment env).get s = (env s.envName).bind fun value => s.read? (Text.trim value.toList) := by
  rw [ofEnvironment, get_ofTexts, Option.bind_map]
  rfl

theorem get_ofEnvironment_only (s t : Setting) (value : String) :
    (ofEnvironment (Environment.only s.envName value)).get t =
      if t = s then t.read? (Text.trim value.toList) else none := by
  by_cases hts : t = s
  · subst hts
    simp [get_ofEnvironment, Environment.only]
  · have hname : t.envName ≠ s.envName := fun hname => hts (Setting.envName_inj hname)
    simp [get_ofEnvironment, Environment.only, hname, hts]

theorem get_ofConfig_engine {line key value : List Char} (hline : '\n' ∉ line)
    (h : ConfigLine.ofChars line = .assignment key value) (s : Setting) :
    (ofConfig (String.ofList ("[engine]".toList ++ '\n' :: line))).get s =
      if s.key.toList = key then s.read? value else none := by
  have hlines : Text.lines ("[engine]".toList ++ '\n' :: line) = ["[engine]".toList, line] := by
    rw [Text.lines_append (by decide), Text.lines_of_not_mem hline]
  have hheader : ConfigLine.ofChars "[engine]".toList = .header "engine".toList := by decide
  have hread : ConfigReading.ofText ("[engine]".toList ++ '\n' :: line) =
      { inEngine := true, assignments := [(key, value)] } := by
    unfold ConfigReading.ofText
    rw [hlines, List.map_cons, List.map_cons, List.map_nil, hheader, h]
    rfl
  rw [ofConfig, get_ofTexts, String.toList_ofList, hread, ConfigReading.value?]
  by_cases hkey : s.key.toList = key
  · simp [hkey]
  · have hother : (s.key.toList == key) = false := by simpa using hkey
    simp [hkey, List.lookup_cons, hother]

theorem engine_text_eq (s : Setting) (value : String) :
    "[engine]\n" ++ s.key ++ " = " ++ value =
      String.ofList ("[engine]".toList ++ '\n' :: (s.key.toList ++ " = ".toList ++ value.toList)) := by
  apply String.toList_inj.mp
  simp

theorem get_ofConfig_line (s t : Setting) {value : String} (h : '\n' ∉ value.toList) :
    (ofConfig ("[engine]\n" ++ s.key ++ " = " ++ value)).get t =
      if t = s then t.read? (ConfigLine.unquote (Text.trim value.toList)) else none := by
  have hline : '\n' ∉ s.key.toList ++ " = ".toList ++ value.toList := by simp [s.newline_not_mem_key, h]
  rw [engine_text_eq, get_ofConfig_engine hline (ConfigLine.ofChars_key_equals s _)]
  by_cases hts : t = s
  · rw [hts, if_pos rfl, if_pos rfl]
  · have hkey : t.key.toList ≠ s.key.toList := fun hkey => hts (Setting.key_inj hkey)
    rw [if_neg hkey, if_neg hts]

/-- **The environment and the configuration read a value alike**, unless it is in quotes, which only the
configuration takes off. Each sets the one setting, to what the value writes once blanks around it
are left out, and no other. -/
theorem environment_config_agree (s : Setting) (value : String) (hline : '\n' ∉ value.toList)
    (hquotes : ¬ ((Text.trim value.toList).head? = some '\x22' ∧ (Text.trim value.toList).getLast? = some '\x22')) :
    let fromEnvironment := ofEnvironment (Environment.only s.envName value)
    let fromConfig := ofConfig ("[engine]\n" ++ s.key ++ " = " ++ value)
    fromEnvironment = fromConfig ∧
      (∀ v, fromEnvironment.get s = some v ↔ s.Writes (Text.trim value.toList) v) ∧
      ∀ t, t ≠ s → fromEnvironment.get t = none ∧ fromConfig.get t = none := by
  intro fromEnvironment fromConfig
  have henv : ∀ t, fromEnvironment.get t = if t = s then t.read? (Text.trim value.toList) else none :=
    fun t => get_ofEnvironment_only s t value
  have hconfig : ∀ t, fromConfig.get t = if t = s then t.read? (Text.trim value.toList) else none := by
    intro t
    rw [get_ofConfig_line s t hline, ConfigLine.unquote_of_ends hquotes]
  refine ⟨ext_get fun t => ?_, fun v => ?_, fun t hts => ⟨?_, ?_⟩⟩
  · rw [henv, hconfig]
  · rw [henv, if_pos rfl, Setting.read?_eq_some_iff]
  · rw [henv, if_neg hts]
  · rw [hconfig, if_neg hts]

theorem environment_config_agree_blanks :
    let value := "\u2003+007\x0d"
    '\n' ∉ value.toList ∧ (Text.trim value.toList).head? ≠ some '\x22' ∧
      ofEnvironment (Environment.only "TAPEBF_MAX_STEPS" value) =
        ofConfig ("[engine]\nmax_steps = " ++ value) := by
  intro value
  have hline : '\n' ∉ value.toList := by decide
  have hquote : (Text.trim value.toList).head? ≠ some '\x22' := by decide
  exact ⟨hline, hquote, (environment_config_agree .maxSteps value hline fun h => hquote h.1).1⟩

end Layer

/-! ## Layers over layers -/

/-- Layers laid over one another, grouped in some way. -/
inductive Layering where
  | nothing
  | layer (l : Layer)
  | stack (upper lower : Layering)

namespace Layering

def merged : Layering → Layer
  | nothing => Layer.empty
  | layer l => l
  | stack upper lower => upper.merged.orElse lower.merged

def layers : Layering → List Layer
  | nothing => []
  | layer l => [l]
  | stack upper lower => upper.layers ++ lower.layers

theorem get_merged (g : Layering) (s : Setting) : g.merged.get s = g.layers.findSome? (·.get s) := by
  induction g with
  | nothing => simp [merged, layers]
  | layer l => simp [merged, layers]
  | stack upper lower ihupper ihlower =>
    rw [merged, layers, Layer.get_orElse, ihupper, ihlower, List.findSome?_append]

end Layering

/-! ## From a layer to settings -/

namespace Setting

def Settled : Setting → Type
  | tapeCells => Nat
  | cellWidth => CellWidth
  | loopStrategy => LoopStrategy
  | maxSteps => Option Nat
  | timeout => Option Nat

/-- What becomes of the value that the sources come to: without one it is the default, and the number of
cells is then brought into its range. -/
def settle : (s : Setting) → Option s.Value → s.Settled
  | tapeCells, n => (max 1 (min (Option.getD (α := Nat) n 30000) 16777216) : Nat)
  | cellWidth, w => Option.getD (α := CellWidth) w .byte
  | loopStrategy, strategy => Option.getD (α := LoopStrategy) strategy .scan
  | maxSteps, n => n
  | timeout, n => n

end Setting

def Settings.get (c : Settings) : (s : Setting) → s.Settled
  | .tapeCells => c.engine.tapeCells
  | .cellWidth => c.engine.cellWidth
  | .loopStrategy => c.engine.loopStrategy
  | .maxSteps => c.engine.maxSteps
  | .timeout => c.timeout

theorem Layer.get_settings (l : Layer) (s : Setting) : l.settings.get s = s.settle (l.get s) := by
  cases s with
  | maxSteps => exact Option.or_none
  | _ => rfl

/-! ## The configuration file -/

theorem fromUTF8?_eq_some_iff {content : ByteArray} {text : String} :
    String.fromUTF8? content = some text ↔ content = text.toUTF8 := by
  unfold String.fromUTF8?
  by_cases h : content.IsValidUTF8
  · rw [dif_pos h, Option.some_inj]
    apply Iff.intro
    · rintro rfl
      rfl
    · rintro rfl
      rfl
  · rw [dif_neg h]
    apply iff_of_false (by simp)
    rintro rfl
    exact h text.isValidUTF8

theorem Files.readText_eq_ok_iff {files : Files} {path text : String} :
    files.readText path = .ok text ↔ files path = .ok text.toUTF8 := by
  unfold Files.readText
  cases files path with
  | error e => simp
  | ok content =>
    rw [Except.ok.injEq, ← fromUTF8?_eq_some_iff]
    cases hread : String.fromUTF8? content <;> simp [hread]

/-- What the configuration file is taken to hold: its text, or nothing where no text can be read. -/
inductive ConfigContent (files : Files) (env : Environment) (configHome : Option String) : String → Prop
  | readable {path text : String} (hpath : configPath? env configHome = some path)
      (hfile : files path = .ok text.toUTF8) : ConfigContent files env configHome text
  | unreadable (h : ∀ path (text : String), configPath? env configHome = some path →
      files path ≠ .ok text.toUTF8) : ConfigContent files env configHome ""

theorem exists_configContent (files : Files) (env : Environment) (configHome : Option String) :
    ∃ text, ConfigContent files env configHome text := by
  by_cases h : ∃ path, ∃ text : String, configPath? env configHome = some path ∧ files path = .ok text.toUTF8
  · obtain ⟨path, text, hpath, hfile⟩ := h
    exact ⟨text, .readable hpath hfile⟩
  · exact ⟨"", .unreadable fun path text hpath hfile => h ⟨path, text, hpath, hfile⟩⟩

namespace ConfigContent
variable {files : Files} {env : Environment} {configHome : Option String} {text : String}

theorem ofConfigFile_eq (h : ConfigContent files env configHome text) :
    Layer.ofConfigFile files env configHome = Layer.ofConfig text := by
  unfold Layer.ofConfigFile
  cases h with
  | readable hpath hfile => simp [hpath, Files.readText_eq_ok_iff.mpr hfile]
  | unreadable h =>
    have hempty : Layer.empty = Layer.ofConfig "" := by decide
    cases hpath : configPath? env configHome with
    | none => exact hempty
    | some path =>
      cases hread : files.readText path with
      | error e => simp [hread, hempty]
      | ok text => exact absurd (Files.readText_eq_ok_iff.mp hread) (h path text hpath)

theorem get_resolve (h : ConfigContent files env configHome text) (flags : Layer) (s : Setting) :
    (Settings.resolve files env flags configHome).get s =
      s.settle ((flags.get s).or
        (((env s.envName).bind fun value => s.read? (Text.trim value.toList)).or ((Layer.ofConfig text).get s))) := by
  rw [Settings.resolve, Layer.get_settings, Layer.get_orElse, Layer.get_orElse, Layer.get_ofEnvironment,
    h.ofConfigFile_eq, Option.or_assoc]

end ConfigContent

def ConfigReading.Assigned (text key value : List Char) : Prop :=
  LastBefore (SetsAt (Text.lines text) key) (Text.lines text).length value

theorem Layer.get_ofConfig_congr {text text' : String} {s : Setting}
    (h : ∀ value, ConfigReading.Assigned text.toList s.key.toList value ↔
      ConfigReading.Assigned text'.toList s.key.toList value) :
    (ofConfig text).get s = (ofConfig text').get s := by
  have hvalue : (ConfigReading.ofText text.toList).value? s.key.toList =
      (ConfigReading.ofText text'.toList).value? s.key.toList := by
    apply Option.ext
    intro value
    rw [ConfigReading.value?_ofText_iff, ConfigReading.value?_ofText_iff]
    exact h value
  rw [ofConfig, ofConfig, get_ofTexts, get_ofTexts, hvalue]

/-- **The first source that sets it.** Laying layers over one another can be grouped in any way, and a setting has
the value of the first layer that sets it, or else the default. On the command line that is the flag,
else its variable if the value there can be read, else what the configuration file sets, a file that
cannot be read being empty. Nothing else a source says has any bearing on it. -/
theorem Settings.first_source_wins :
    (∀ a b c : Layer, (a.orElse b).orElse c = a.orElse (b.orElse c)) ∧
    (∀ l : Layer, Layer.empty.orElse l = l ∧ l.orElse Layer.empty = l) ∧
    (∀ (g : Layering) (s : Setting), g.merged.settings.get s = s.settle (g.layers.findSome? (·.get s))) ∧
    (∀ files env configHome, ∃ text, ConfigContent files env configHome text) ∧
    (∀ files env configHome text, ConfigContent files env configHome text → ∀ (flags : Layer) (s : Setting),
      (resolve files env flags configHome).get s =
        s.settle ((flags.get s).or
          (((env s.envName).bind fun value => s.read? (Text.trim value.toList)).or ((Layer.ofConfig text).get s)))) ∧
    ∀ files env configHome text files' env' configHome' text' (flags flags' : Layer) (s : Setting),
      ConfigContent files env configHome text → ConfigContent files' env' configHome' text' →
      flags.get s = flags'.get s → env s.envName = env' s.envName →
      (∀ value, ConfigReading.Assigned text.toList s.key.toList value ↔
        ConfigReading.Assigned text'.toList s.key.toList value) →
      (resolve files env flags configHome).get s = (resolve files' env' flags' configHome').get s := by
  refine ⟨Layer.orElse_assoc, fun l => ⟨l.empty_orElse, l.orElse_empty⟩, ?_, exists_configContent,
    fun _ _ _ _ h => h.get_resolve, ?_⟩
  · intro g s
    rw [Layer.get_settings, Layering.get_merged]
  · intro files env configHome text files' env' configHome' text' flags flags' s h h' hflags henv hassigned
    rw [h.get_resolve, h'.get_resolve, hflags, henv, Layer.get_ofConfig_congr hassigned]

theorem Settings.first_source_wins_fall_through :
    let text := "[engine]\nmax_steps = 7\ncell_width = wide\n"
    let files : Files := fun path => if path = "conf/tapebf.toml" then .ok text.toUTF8 else .error .noSuchFile
    let env : Environment := fun name =>
      if name = "TAPEBF_MAX_STEPS" then some "soon"
      else if name = "TAPEBF_CELL_WIDTH" then some " Word "
      else none
    let settings := resolve files env { Layer.empty with tapeCells := some 0 } (some "conf")
    ConfigContent files env (some "conf") text ∧ settings.engine.tapeCells = 1 ∧ settings.engine.cellWidth = .word ∧
      settings.engine.maxSteps = some 7 ∧ settings.timeout = none := by
  intro text files env settings
  have hpath : configPath? env (some "conf") = some "conf/tapebf.toml" := by decide
  have hcontent : ConfigContent files env (some "conf") text := .readable hpath rfl
  have hget := first_source_wins.2.2.2.2.1 files env (some "conf") text hcontent
    { Layer.empty with tapeCells := some 0 }
  have hconfig : Layer.ofConfig text = { Layer.empty with cellWidth := some .wide, maxSteps := some 7 } := by decide
  rw [hconfig] at hget
  exact ⟨hcontent, hget .tapeCells, hget .cellWidth, hget .maxSteps, hget .timeout⟩

end Brainfuck
