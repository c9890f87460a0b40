import Brainfuck.CommandLine.Report
import Brainfuck.Proofs.BracketErrors
import Brainfuck.Proofs.Limits
import Brainfuck.Proofs.Room

/-!
# What a command line reports of a run

A command line whose program can be loaded, and whose run ends and has no time limit, reports what
the engine comes to on the program without its remarks. It succeeds exactly when all brackets have
partners and the steps are enough, and a record of the steps goes before anything else on the
second stream (`Invocation.report_faithful`).
-/

namespace Brainfuck

/-! ## When an execution succeeds -/

namespace Engine
variable {e : Engine} {program input : String} {result : Except RunError String}

theorem halts_of_returns_ok {o : String} (h : e.Returns program input (.ok o)) :
    ∃ n, Halts (e.code program) (e.initial input) n (.ok o) ∧ ∀ N, e.maxSteps = some N → n ≤ N := by
  rcases returns_iff.mp h with ⟨n, r, hr, hn, heq⟩ | ⟨N, -, -, heq⟩
  · cases r with
    | error u => cases heq
    | ok o' => cases heq; exact ⟨n, hr, hn⟩
  · cases heq

theorem returnsAfter_of_halts_ok {n : Nat} {o : String}
    (h : Halts (e.code program) (e.initial input) n (.ok o)) :
    (e.withLimit none).ReturnsAfter n program input (.ok o) := by
  have hreturns : (e.withLimit none).Returns program input (.ok o) :=
    (returns_unlimited_iff rfl).mpr ⟨n, _, h, rfl⟩
  obtain ⟨k, hk⟩ := hreturns.exists_after
  obtain ⟨rfl, -⟩ := h.deterministic (halts_of_returnsAfter_ok (e := e.withLimit none) hk)
  exact hk

/-- **When an execution succeeds.** All brackets have partners, and the execution that nobody limits
takes no more steps than are allowed. -/
theorem ok_iff_of_returns (h : e.Returns program input result) :
    (∃ o, result = .ok o) ↔
      unmatchedPlaces .opening program.toList = [] ∧ unmatchedPlaces .closing program.toList = [] ∧
        ∃ k r, (e.withLimit none).ReturnsAfter k program input r ∧ ∀ N, e.maxSteps = some N → k ≤ N := by
  have hverdict : ∀ {n r}, Halts (e.code program) (e.initial input) n r →
      ((∃ o, r = .ok o) ↔
        unmatchedPlaces .opening program.toList = [] ∧ unmatchedPlaces .closing program.toList = []) :=
    fun hr => (verdict_of_halts (tracks_initial ..) rfl hr).ok_iff
  apply Iff.intro
  · intro hok
    obtain ⟨o, rfl⟩ := hok
    obtain ⟨n, hr, hn⟩ := halts_of_returns_ok h
    obtain ⟨hopen, hclose⟩ := (hverdict hr).mp ⟨o, rfl⟩
    exact ⟨hopen, hclose, n, _, returnsAfter_of_halts_ok hr, hn⟩
  · intro hall
    obtain ⟨hopen, hclose, k, r, hafter, hk⟩ := hall
    have hunlimited : (e.withLimit none).Returns program input r := EndsAfter.ends hafter
    obtain ⟨n, r', hr, rfl⟩ := (returns_unlimited_iff rfl).mp hunlimited
    -- the unlimited execution fails on no bracket, and what it takes is allowed
    obtain ⟨o, rfl⟩ := (hverdict hr).mpr ⟨hopen, hclose⟩
    have hhalts := halts_of_returnsAfter_ok (e := e.withLimit none) hafter
    have hreturns : e.Returns program input (.ok o) := returns_iff.mpr (Or.inl ⟨k, _, hhalts, hk, rfl⟩)
    exact ⟨o, h.unique hreturns⟩

end Engine

/-! ## Exit codes and streams -/

def Report.withRecord (r : Report) (record : String) : Report :=
  { r with stderr := record ++ r.stderr }

theorem RunError.diagnostic_ne_empty (style : Style) (name : Option String) (program : String) (e : RunError) :
    e.diagnostic style name program ≠ "" := by
  cases e <;> simp [diagnostic, place?, Diagnostic.atPlace]

namespace Outcome
variable {style : Style} {name program : String} {result : Except RunError String}

theorem complaint_ne_empty (e : RunError) : complaint style name program e ≠ "" := by
  cases e <;> simp [complaint, RunError.diagnostic_ne_empty]

theorem report_recorded (sink : Sink) :
    (ended { result, sink := some sink }).report style name program =
      ((ended { result, sink := none }).report style name program).withRecord sink.offered := by
  cases result <;> simp [report, record, Report.withRecord]

theorem exitCode_report_eq_zero_iff {sink : Option Sink} :
    ((ended { result, sink }).report style name program).exitCode = 0 ↔ ∃ o, result = .ok o := by
  cases result <;> simp [report]

end Outcome

/-! ## From the command line to the engine -/

namespace Job

def sink (j : Job) : Option Sink :=
  if j.traced then some Sink.unbounded else none

theorem advance_start (j : Job) (n : Nat) :
    j.advance n j.start = j.settings.engine.progress n Controls.none j.sink j.program j.input := by
  unfold advance start Engine.progress sink
  rw [Progress.advance_zero]

theorem outcome?_eq {j : Job} (h : j.settings.timeout = none) (n pace : Nat) :
    j.outcome? n pace =
      (j.settings.engine.execute n Controls.none j.sink j.program j.input).map .ended := by
  simp only [outcome?, h, advance_start]
  rfl

end Job

namespace Invocation

/-- The command line comes to this report when it is given steps enough. -/
def Reports (i : Invocation) (s : Surroundings) (r : Report) : Prop :=
  ∃ n pace, i.report? n pace s = some r

def withTrace (i : Invocation) (trace : Bool) : Invocation :=
  { i with trace }

section
variable {i : Invocation} {s : Surroundings} {j : Job}

theorem reports_iff (hjob : i.job s = .ok j) (htime : j.settings.timeout = none) {r : Report} :
    i.Reports s r ↔ ∃ ending, j.settings.engine.Ends Controls.none j.sink j.program j.input ending ∧
      (Outcome.ended ending).report s.style s.name j.program = r := by
  simp only [Reports, report?, hjob, Job.outcome?_eq htime, Option.map_map, Option.map_eq_some_iff,
    Function.comp_apply, exists_const, Engine.Ends]
  apply Iff.intro
  · intro h
    obtain ⟨n, ending, he, hr⟩ := h
    exact ⟨ending, ⟨n, he⟩, hr⟩
  · intro h
    obtain ⟨ending, ⟨n, he⟩, hr⟩ := h
    exact ⟨n, ending, he, hr⟩

theorem reports_iff_eq (hjob : i.job s = .ok j) (htime : j.settings.timeout = none) {ending : Ending}
    (hends : j.settings.engine.Ends Controls.none j.sink j.program j.input ending) (r : Report) :
    i.Reports s r ↔ r = (Outcome.ended ending).report s.style s.name j.program := by
  rw [reports_iff hjob htime]
  apply Iff.intro
  · intro h
    obtain ⟨ending', hends', rfl⟩ := h
    rw [hends.unique hends']
  · intro h
    exact ⟨ending, hends, h.symm⟩

theorem job_eq_ok {path text : String} (hhelp : i.help = false) (hfile : i.file = some path)
    (htext : s.files.readText path = .ok text) (trace : Bool) :
    (i.withTrace trace).job s = .ok {
      program := instructionsOf text
      input := i.input.getD ""
      settings := Settings.resolve s.files s.environment i.flags s.configHome
      traced := trace } := by
  simp [job, withTrace, hhelp, hfile, loadProgram, htext]

end

/-- **A command line reports its run.** The exit code is `0` exactly when the program has no bracket without
partner and its steps are allowed; then the output is on the first stream. Otherwise the exit code is `1`,
and the cause is on the second stream. A record does not change any of it. -/
theorem report_faithful (i : Invocation) (s : Surroundings) {path text : String}
    (hhelp : i.help = false) (hfile : i.file = some path) (htext : s.files.readText path = .ok text)
    (htime : (Settings.resolve s.files s.environment i.flags s.configHome).timeout = none)
    (hends : ∃ result, (Settings.resolve s.files s.environment i.flags s.configHome).engine.Returns
      (instructionsOf text) (i.input.getD "") result) :
    let engine := (Settings.resolve s.files s.environment i.flags s.configHome).engine
    let program := instructionsOf text
    let input := i.input.getD ""
    ∃ plain table result,
      (∀ r, (i.withTrace false).Reports s r ↔ r = plain) ∧
      (∀ r, (i.withTrace true).Reports s r ↔ r = plain.withRecord table) ∧
      engine.Records Controls.none program input result table ∧
      (plain.exitCode = 0 ↔
        unmatchedPlaces .opening program.toList = [] ∧ unmatchedPlaces .closing program.toList = [] ∧
          ∃ k r, (engine.withLimit none).ReturnsAfter k program input r ∧
            ∀ N, engine.maxSteps = some N → k ≤ N) ∧
      (plain.exitCode = 0 → ∃ o, (engine.withLimit none).Returns program input (.ok o) ∧
        plain.stdout = o ++ "\n" ∧ plain.stderr = "") ∧
      (plain.exitCode ≠ 0 → plain.exitCode = 1 ∧ plain.stdout = "" ∧ plain.stderr ≠ "") := by
  intro engine program input
  obtain ⟨result, hreturns⟩ := hends
  obtain ⟨table, htable⟩ := (Engine.ends_iff_records Controls.neverCancels_none).mp hreturns
  let plain := (Outcome.ended { result, sink := none }).report s.style s.name program
  have hplain : ∀ r, (i.withTrace false).Reports s r ↔ r = plain :=
    reports_iff_eq (job_eq_ok hhelp hfile htext false) htime hreturns
  have htraced : ∀ r, (i.withTrace true).Reports s r ↔ r = plain.withRecord table := by
    intro r
    rw [reports_iff_eq (job_eq_ok hhelp hfile htext true) htime htable, Outcome.report_recorded]
    simp [Sink.unbounded, plain, program]
  refine ⟨plain, table, result, hplain, htraced, htable, ?_, ?_, ?_⟩
  · rw [Outcome.exitCode_report_eq_zero_iff]
    exact Engine.ok_iff_of_returns hreturns
  · intro hzero
    obtain ⟨o, rfl⟩ := Outcome.exitCode_report_eq_zero_iff.mp hzero
    obtain ⟨n, hr, -⟩ := Engine.halts_of_returns_ok hreturns
    exact ⟨o, (Engine.returns_unlimited_iff rfl).mpr ⟨n, _, hr, rfl⟩, rfl, rfl⟩
  · intro hne
    cases result with
    | ok o => exact absurd rfl hne
    | error e =>
      refine ⟨rfl, rfl, ?_⟩
      simp [plain, Outcome.report, Outcome.record, Outcome.complaint_ne_empty]

theorem report_faithful_limit_reached :
    let i := { empty with file := some "print.bf" }
    let s : Surroundings := {
      name := "bf"
      environment := fun name => if name = "TAPEBF_MAX_STEPS" then some " 2 " else none
      files := fun _ => .ok "+ one .".toUTF8
      configHome := none }
    (i.withTrace false).Reports s { exitCode := 0, stdout := "\x01\n", stderr := "" } ∧
      ∃ table, (i.withTrace true).Reports s { exitCode := 0, stdout := "\x01\n", stderr := table } := by
  intro i s
  have htext : s.files.readText "print.bf" = .ok "+ one ." := rfl
  let e : Engine := { Engine.standard with maxSteps := some 2 }
  have hends : e.Returns "+." "" (.ok "\x01") := ⟨3, rfl⟩
  obtain ⟨plain, table, result, hplain, htraced, -, hzero, hok, -⟩ :=
    report_faithful i s rfl rfl htext rfl ⟨_, hends⟩
  have hcode : plain.exitCode = 0 := by
    rw [hzero]
    refine ⟨by decide, by decide, 2, .ok "\x01", ⟨_, rfl, rfl⟩, ?_⟩
    intro N hN
    cases hN
    decide
  obtain ⟨o, ho, hout, herr⟩ := hok hcode
  have hunlimited : (e.withLimit none).Returns "+." "" (.ok "\x01") := ⟨3, rfl⟩
  cases ho.unique hunlimited
  have heq : plain = { exitCode := 0, stdout := "\x01\n", stderr := "" } := by
    rw [← hcode, ← herr, show "\x01\n" = plain.stdout from hout.symm]
  subst heq
  exact ⟨(hplain _).mpr rfl, _, (htraced _).mpr rfl⟩

end Invocation

end Brainfuck
