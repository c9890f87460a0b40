import Brainfuck.Proofs.Invariant
import Brainfuck.Proofs.Renumbering

/-!
# Passing a bracket

Whichever way a machine gets to the place behind a bracket, it knows its cell there: it is not zero
behind an opening bracket and zero behind a closing one (`Tracks.cell_behind_bracket`). While the
characters of a loop are passed over, nothing changes but the place and the depth
(`Engine.exists_skip_start`).
-/

namespace Brainfuck

/-! ## Behind a bracket -/

theorem Tracks.cell_behind_bracket {strategy : LoopStrategy} {text : List Char} {s : State} {c : Char} {a : Action}
    (h : Tracks strategy text s) (hc : text[s.ip]? = some c)
    (ha : s.action (Code.ofList strategy text) c = .ok a) (hm' : (s.perform a).mode = .running) :
    (text[a.leaves s]? = some '[' → (s.perform a).tape.current ≠ 0) ∧
      (text[a.leaves s]? = some ']' → (s.perform a).tape.current = 0) := by
  cases hm : s.mode with
  | running =>
    cases obeys_of_action hm ha with
    | plain ho hcl hp =>
      have hleaves : a.leaves s = s.ip := by
        have := (perform_plain hp).1
        rw [ip_perform] at this
        omega
      rw [hleaves, hc]
      exact ⟨fun h => absurd (Option.some.inj h) ho, fun h => absurd (Option.some.inj h) hcl⟩
    | enter hcell => exact ⟨fun _ => hcell, fun h => absurd (hc.symm.trans h) (by decide)⟩
    | jump hcell _ hp =>
      have hclose := (pair_of_partner?_open hc hp).closes
      exact ⟨fun h => absurd (hclose.symm.trans h) (by decide), fun _ => hcell⟩
    | startSkip => cases hm'
    | back hcell hl =>
      have hopen := (h.pair_of_loops hm hl hc).opens
      exact ⟨fun _ => hcell, fun h => absurd (hopen.symm.trans h) (by decide)⟩
    | exit hcell => exact ⟨fun h => absurd (hc.symm.trans h) (by decide), fun _ => hcell⟩
  | skipping o d =>
    have hcell := (h.skipping_inv hm).2.2.2.2
    cases passes_of_action hm ha with
    | last => exact ⟨fun h => absurd (hc.symm.trans h) (by decide), fun _ => hcell⟩
    | _ => simp [State.perform, hm] at hm'

theorem Engine.cell_of_reaches {e : Engine} {n : Nat} {program input : String} {s : State}
    (h : Reaches (e.code program) n (e.initial input) s) (hm : s.mode = .running) (hip : 1 ≤ s.ip) :
    (program.toList[s.ip - 1]? = some '[' → s.tape.current ≠ 0) ∧
      (program.toList[s.ip - 1]? = some ']' → s.tape.current = 0) := by
  cases n with
  | zero =>
    cases h
    exact absurd hip (Nat.not_succ_le_zero 0)
  | succ n =>
    obtain ⟨t, c, a, ht, hc, ha, rfl⟩ := h.exists_snoc
    rw [ip_perform, Nat.add_sub_cancel]
    exact (tracks_of_reaches ht).cell_behind_bracket ((getElem?_text_ofList ..).symm.trans hc) ha hm

/-! ## While a loop is passed over -/

/-- All but the place and the mode is the same. -/
structure State.Unchanged (s t : State) : Prop where
  tape : t.tape = s.tape
  input : t.input = s.input
  output : t.output = s.output
  loops : t.loops = s.loops

theorem State.Unchanged.trans {s t u : State} (h : s.Unchanged t) (h' : t.Unchanged u) : s.Unchanged u :=
  ⟨h'.tape.trans h.tape, h'.input.trans h.input, h'.output.trans h.output, h'.loops.trans h.loops⟩

/-- A step after which a loop is passed over changes nothing. It has met the bracket of that loop, or
that loop was passed over before. -/
theorem unchanged_of_skipping {strategy : LoopStrategy} {text : List Char} {s : State} {c : Char} {a : Action}
    {o d : Nat} (ha : s.action (Code.ofList strategy text) c = .ok a)
    (hm' : (s.perform a).mode = .skipping o d) :
    s.Unchanged (s.perform a) ∧
      ((s.mode = .running ∧ s.ip = o ∧ c = '[') ∨ ∃ d', s.mode = .skipping o d') := by
  cases hm : s.mode with
  | running =>
    cases obeys_of_action hm ha with
    | plain _ _ hp =>
      rw [(perform_plain hp).2.2, hm] at hm'
      cases hm'
    | startSkip =>
      cases hm'
      exact ⟨⟨rfl, rfl, rfl, rfl⟩, Or.inl ⟨rfl, rfl, rfl⟩⟩
    | _ =>
      have : Mode.running = .skipping o d := hm.symm.trans hm'
      cases this
  | skipping o' d' =>
    cases passes_of_action hm ha with
    | last => cases hm'
    | _ =>
      simp only [State.perform, hm] at hm' ⊢
      cases hm'
      exact ⟨⟨rfl, rfl, rfl, rfl⟩, Or.inr ⟨_, rfl⟩⟩

namespace Engine
variable {e : Engine} {n : Nat} {given : Controls} {sink : Option Sink} {program input : String} {run : Run}

def SkipsFrom (e : Engine) (given : Controls) (sink : Option Sink) (program input : String) (o : Nat) (s : State)
    (n : Nat) : Prop :=
  ∃ run d, e.progress n given sink program input = .running run ∧ run.state.mode = .skipping o d ∧
    s.Unchanged run.state

theorem SkipsFrom.unchanged {o : Nat} {s : State} (h : e.SkipsFrom given sink program input o s n)
    (hp : e.progress n given sink program input = .running run) : s.Unchanged run.state := by
  obtain ⟨last, _, hlast, -, hkept⟩ := h
  rw [hp] at hlast
  cases hlast
  exact hkept

/-- **The start of a skip.** The induction goes back from step to step until it comes to the bracket. -/
theorem exists_skip_start {o d : Nat} (h : e.progress n given sink program input = .running run)
    (hm : run.state.mode = .skipping o d) :
    ∃ m start, m < n ∧ e.progress m given sink program input = .running start ∧
      start.state.mode = .running ∧ start.state.ip = o ∧ program.toList[o]? = some '[' ∧
      ∀ k, m < k → k ≤ n → e.SkipsFrom given sink program input o start.state k := by
  induction n generalizing run d with
  | zero =>
    rw [progress_zero] at h
    rw [Progress.start_eq_running h] at hm
    cases hm
  | succ n ih =>
    obtain ⟨prev, hprev, hnext⟩ := progress_succ_eq_running h
    obtain ⟨c, a, hc, -, ha, hcomplete⟩ := Run.next_eq_running hnext
    have hstate : run.state = prev.state.perform a := by rw [Run.complete_eq_running hcomplete]
    obtain ⟨hsame, hbefore⟩ := unchanged_of_skipping ha (hstate ▸ hm)
    rw [← hstate] at hsame
    rcases hbefore with ⟨hrun, hip, rfl⟩ | ⟨d', hskip⟩
    · rw [hip] at hc
      refine ⟨n, prev, Nat.lt_succ_self n, hprev, hrun, hip, (getElem?_text_ofList ..).symm.trans hc, ?_⟩
      intro k hnk hkn
      have hk : k = n + 1 := by omega
      subst hk
      exact ⟨run, d, h, hm, hsame⟩
    · obtain ⟨m, start, hmn, hstart, hmode, hip, hopen, hall⟩ := ih hprev hskip
      refine ⟨m, start, Nat.lt_succ_of_lt hmn, hstart, hmode, hip, hopen, ?_⟩
      intro k hmk hkn
      rcases Nat.lt_succ_iff_lt_or_eq.mp (Nat.lt_succ_of_le hkn) with hlt | rfl
      · exact hall k hmk (Nat.le_of_lt_succ hlt)
      · have hkept := (hall n hmn (Nat.le_refl n)).unchanged hprev
        exact ⟨run, d, h, hm, hkept.trans hsame⟩

/-- **What is known behind a bracket and inside a skip.** Behind an opening bracket the cell is not zero, and
behind a closing one it is zero, whichever way the execution came there. While it passes over a loop,
the tape, the input, the output and the loops are those that the bracket of that loop was met with. -/
theorem passing_brackets (h : e.progress n given sink program input = .running run) :
    (run.state.mode = .running → 1 ≤ run.state.ip →
      (program.toList[run.state.ip - 1]? = some '[' → run.state.tape.current ≠ 0) ∧
        (program.toList[run.state.ip - 1]? = some ']' → run.state.tape.current = 0)) ∧
    ∀ origin depth, run.state.mode = .skipping origin depth →
      ∃ m start, m < n ∧ e.progress m given sink program input = .running start ∧
        start.state.mode = .running ∧ start.state.ip = origin ∧ program.toList[origin]? = some '[' ∧
        start.state.Unchanged run.state ∧
        ∀ k, m < k → k ≤ n → e.SkipsFrom given sink program input origin start.state k := by
  refine ⟨cell_of_reaches (reaches_of_progress h).1, ?_⟩
  intro o d hm
  obtain ⟨m, start, hmn, hstart, hmode, hip, hopen, hall⟩ := exists_skip_start h hm
  have hkept := (hall n hmn (Nat.le_refl n)).unchanged h
  exact ⟨m, start, hmn, hstart, hmode, hip, hopen, hkept, hall⟩

theorem passing_brackets_inner_loop :
    ∃ run run', standard.progress 5 Controls.none none "+[>[.]<-]" "" = .running run ∧
      standard.progress 6 Controls.none none "+[>[.]<-]" "" = .running run' ∧
      run.state.mode = .skipping 3 1 ∧
      (∃ m start, m < 5 ∧ standard.progress m Controls.none none "+[>[.]<-]" "" = .running start ∧
        start.state.ip = 3 ∧ start.state.Unchanged run.state) ∧
      run'.state.mode = .running ∧ run'.state.ip = 6 ∧ run'.state.tape.current = 0 := by
  obtain ⟨run, h, hm⟩ : ∃ run, standard.progress 5 Controls.none none "+[>[.]<-]" "" = .running run ∧
      run.state.mode = .skipping 3 1 := ⟨_, rfl, rfl⟩
  obtain ⟨run', h', hm', hip'⟩ : ∃ run, standard.progress 6 Controls.none none "+[>[.]<-]" "" = .running run ∧
      run.state.mode = .running ∧ run.state.ip = 6 := ⟨_, rfl, rfl, rfl⟩
  obtain ⟨m, start, hmn, hstart, -, hip, -, hkept, -⟩ := (passing_brackets h).2 3 1 hm
  have hcell := ((passing_brackets h').1 hm' (by omega)).2 (by rw [hip']; decide)
  exact ⟨run, run', h, h', hm, ⟨m, start, hmn, hstart, hip, hkept⟩, hm', hip', hcell⟩

end Engine

end Brainfuck
