import Brainfuck.Proofs.Lockstep

/-!
# Input that is not read

The input is read in order, one character for each `,` that is obeyed, until nothing is left
(`Engine.input_eq_drop`). What was not read yet does not show: an execution goes the same way when
another text stands there (`Engine.progress_withInput`).
-/

namespace Brainfuck

def Run.reads (code : Code) (controls : Controls) (r : Run) : Bool :=
  decide (code.text[r.state.ip]? = some ',' ∧ r.state.mode = .running ∧ r.refusal? controls = none)

def Progress.reads (code : Code) (controls : Controls) : Progress → Bool
  | .running run => run.reads code controls
  | .ended _ => false

/-- How often a `,` is obeyed in the first `n` steps. The last of these steps counts even if its row
cannot be written. -/
def Engine.reads (e : Engine) (given : Controls) (sink : Option Sink) (program input : String) (n : Nat) : Nat :=
  (List.range n).countP fun k =>
    (e.progress k given sink program input).reads (e.code program) (e.controls given)

/-! ## Steps on another input -/

def State.withInput (s : State) (i : List Char) : State :=
  { s with input := i }

def Run.withInput (r : Run) (i : List Char) : Run :=
  { r with state := r.state.withInput i }

def Progress.withInput (i : List Char) : Progress → Progress
  | .running run => .running (run.withInput i)
  | .ended ending => .ended ending

def Action.onInput (i : List Char) : Action → List Char
  | .read _ => i.tail
  | _ => i

section
variable {code : Code} {controls : Controls} {s : State} {r : Run} {i : List Char} {c : Char} {a : Action}

theorem input_perform (s : State) (a : Action) : (s.perform a).input = a.onInput s.input := by
  cases a with
  | skip d => cases hm : s.mode <;> simp [State.perform, Action.onInput, hm]
  | _ => rfl

theorem perform_withInput (s : State) (i : List Char) (a : Action) :
    (s.withInput i).perform a = (s.perform a).withInput (a.onInput i) := by
  cases a with
  | skip d => cases hm : s.mode <;> simp [State.perform, State.withInput, Action.onInput, hm]
  | _ => rfl

theorem action_read (hm : s.mode = .running) :
    s.action code ',' = .ok (match s.input with | [] => .readNothing | ch :: _ => .read ch) := by
  rw [action_running hm (i := .read) rfl]
  unfold State.instructionAction
  cases s.input <;> rfl

theorem instructionAction_withInput (s : State) (i : List Char) {inst : Instruction} (h : inst ≠ .read) :
    (s.withInput i).instructionAction code inst = s.instructionAction code inst := by
  cases inst with
  | read => exact absurd rfl h
  | _ => rfl

theorem action_withInput (h : ¬ (c = ',' ∧ s.mode = .running)) (i : List Char) :
    (s.withInput i).action code c = s.action code c := by
  cases hm : s.mode with
  | skipping o d =>
    have hm' : (s.withInput i).mode = .skipping o d := hm
    rw [action_skipping hm, action_skipping hm']
  | running =>
    have hm' : (s.withInput i).mode = .running := hm
    simp only [State.action, hm, hm']
    cases hi : Instruction.ofChar? c with
    | none => rfl
    | some inst =>
      apply instructionAction_withInput
      intro hr
      subst hr
      exact h ⟨Instruction.ofChar?_eq_some_iff.mp hi, hm⟩

theorem onInput_of_action (ha : s.action code c = .ok a) (h : ¬ (c = ',' ∧ s.mode = .running)) (i : List Char) :
    a.onInput i = i := by
  cases hm : s.mode with
  | skipping o d => cases passes_of_action hm ha <;> rfl
  | running =>
    have hinst := instruction?_of_action hm ha
    cases a with
    | read ch => exact absurd ⟨Instruction.ofChar?_eq_some_iff.mp hinst.symm, hm⟩ h
    | _ => rfl

theorem complete_withInput (r : Run) (i : List Char) (c : Char) (a : Action) :
    (r.withInput i).complete c a = (r.complete c a).withInput (a.onInput i) := by
  obtain ⟨steps, state, sink⟩ := r
  cases sink with
  | none => simp only [Run.complete, Run.withInput, perform_withInput]; rfl
  | some sink =>
    simp only [Run.complete, Run.withInput, perform_withInput]
    rw [apply_ite (Progress.withInput (a.onInput i))]
    rfl

/-- **One step.** It shows of another input only the character that it reads. -/
theorem next_withInput {j : List Char}
    (h : ∀ c, code.text[r.state.ip]? = some c → r.refusal? controls = none →
      (r.state.withInput i).action code c = r.state.action code c ∧
        ∀ a, r.state.action code c = .ok a → a.onInput i = j) :
    (r.withInput i).next code controls = (r.next code controls).withInput j := by
  have hip : code.text[(r.withInput i).state.ip]? = code.text[r.state.ip]? := rfl
  have hrefusal : (r.withInput i).refusal? controls = r.refusal? controls := rfl
  cases hc : code.text[r.state.ip]? with
  | none =>
    rw [next_end hc, next_end (hip.trans hc)]
    rfl
  | some c =>
    cases href : r.refusal? controls with
    | some cause =>
      rw [next_refused hc href, next_refused (hip.trans hc) (hrefusal.trans href)]
      rfl
    | none =>
      obtain ⟨haction, hj⟩ := h c hc href
      cases ha : r.state.action code c with
      | error u =>
        rw [next_fail hc href ha, next_fail (hip.trans hc) (hrefusal.trans href) (haction.trans ha)]
        rfl
      | ok a =>
        rw [next_complete hc href ha,
          next_complete (hip.trans hc) (hrefusal.trans href) (haction.trans ha), complete_withInput, hj a ha]

theorem start_withInput (s : State) (i : List Char) (sink : Option Sink) :
    Progress.start (s.withInput i) sink = (Progress.start s sink).withInput i := by
  cases sink with
  | none => rfl
  | some sink =>
    simp only [Progress.start]
    rw [apply_ite (Progress.withInput i)]
    rfl

theorem ending?_withInput (p : Progress) (i : List Char) : (p.withInput i).ending? = p.ending? := by
  cases p <;> rfl

theorem sink_withInput (p : Progress) (i : List Char) : (p.withInput i).sink = p.sink := by
  cases p <;> rfl

theorem not_reads_iff {c : Char} (hc : code.text[r.state.ip]? = some c) (href : r.refusal? controls = none) :
    r.reads code controls = false ↔ ¬ (c = ',' ∧ r.state.mode = .running) := by
  simp [Run.reads, hc, href]

theorem reads_iff :
    r.reads code controls = true ↔
      code.text[r.state.ip]? = some ',' ∧ r.state.mode = .running ∧ r.refusal? controls = none := by
  simp [Run.reads]

end

/-! ## Executions -/

theorem exists_drop_eq_cons {text text' : List Char} {k m : Nat} (h : text'.take m = text.take m)
    (hm : m ≤ text.length) (hk : k < m) :
    ∃ c, text.drop k = c :: text.drop (k + 1) ∧ text'.drop k = c :: text'.drop (k + 1) := by
  have hc : text[k]? = some text[k] := List.getElem?_eq_getElem (Nat.lt_of_lt_of_le hk hm)
  have hc' : text'[k]? = some text[k] := by
    rw [← List.getElem?_take_of_lt hk, h, List.getElem?_take_of_lt hk, hc]
  refine ⟨text[k], ?_, ?_⟩
  · rw [List.drop_eq_getElem?_toList_append, hc]; rfl
  · rw [List.drop_eq_getElem?_toList_append, hc']; rfl

namespace Engine

section
variable {e : Engine} {given : Controls} {sink : Option Sink} {program input input' : String} {m n : Nat}
  {run : Run}

theorem reads_succ_of_reads (h : e.progress n given sink program input = .running run)
    (hr : run.reads (e.code program) (e.controls given) = true) :
    e.reads given sink program input (n + 1) = e.reads given sink program input n + 1 := by
  simp [reads, List.range_succ, h, Progress.reads, hr]

theorem reads_succ_of_not (h : ∀ run, e.progress n given sink program input = .running run →
      run.reads (e.code program) (e.controls given) = false) :
    e.reads given sink program input (n + 1) = e.reads given sink program input n := by
  have hno : (e.progress n given sink program input).reads (e.code program) (e.controls given) = false := by
    cases hp : e.progress n given sink program input with
    | ended ending => rfl
    | running run => exact h run hp
  simp [reads, List.range_succ, hno]

theorem input_eq_drop (h : e.progress n given sink program input = .running run) :
    run.state.input = input.toList.drop (e.reads given sink program input n) := by
  induction n generalizing run with
  | zero =>
    rw [progress_zero] at h
    rw [Progress.start_eq_running h]
    rfl
  | succ n ih =>
    obtain ⟨prev, hprev, hnext⟩ := progress_succ_eq_running h
    obtain ⟨c, a, hc, href, ha, hcomplete⟩ := Run.next_eq_running hnext
    rw [Run.complete_eq_running hcomplete, input_perform]
    have ih := ih hprev
    cases hr : prev.reads (e.code program) (e.controls given) with
    | false =>
      rw [reads_succ_of_not (fun run hrun => by rw [hprev] at hrun; cases hrun; exact hr), ← ih]
      exact onInput_of_action ha ((not_reads_iff hc href).mp hr) _
    | true =>
      obtain ⟨hcomma, hm, -⟩ := reads_iff.mp hr
      rw [hc] at hcomma; cases hcomma
      rw [reads_succ_of_reads hprev hr, ← List.tail_drop, ← ih]
      rw [action_read hm] at ha
      cases hin : prev.state.input with
      | nil => rw [hin] at ha; cases ha; rfl
      | cons ch rest => rw [hin] at ha; cases ha; rfl

/-- **Whole executions.** As long as no more than the first `m` characters are read, another input with
the same first `m` characters leads the same way. -/
theorem progress_withInput (hm : m ≤ input.length) (htake : input'.toList.take m = input.toList.take m)
    (hn : e.reads given sink program input n ≤ m) :
    e.progress n given sink program input' =
      (e.progress n given sink program input).withInput
        (input'.toList.drop (e.reads given sink program input n)) := by
  induction n with
  | zero => exact start_withInput (e.initial input) input'.toList sink
  | succ n ih =>
    cases hp : e.progress n given sink program input with
    | ended ending =>
      have hsame := reads_succ_of_not (n := n) fun run hrun => by rw [hp] at hrun; cases hrun
      rw [hsame] at hn
      have ih := ih hn
      rw [hp] at ih
      rw [progress_of_ended hp, progress_of_ended ih]
      rfl
    | running run =>
      have hin := input_eq_drop hp
      cases hr : run.reads (e.code program) (e.controls given) with
      | false =>
        have hsame := reads_succ_of_not (n := n) fun run' hrun => by rw [hp] at hrun; cases hrun; exact hr
        rw [hsame] at hn ⊢
        have ih := ih hn
        rw [hp] at ih
        rw [progress_succ hp, progress_succ ih]
        apply next_withInput
        intro c hc href
        have hne := (not_reads_iff hc href).mp hr
        exact ⟨action_withInput hne _, fun a ha => onInput_of_action ha hne _⟩
      | true =>
        have hsucc := reads_succ_of_reads hp hr
        rw [hsucc] at hn ⊢
        have ih := ih (Nat.le_of_succ_le hn)
        rw [hp] at ih
        rw [progress_succ hp, progress_succ ih]
        apply next_withInput
        intro c hc href
        obtain ⟨hcomma, hmode, -⟩ := reads_iff.mp hr
        rw [hc] at hcomma; cases hcomma
        obtain ⟨ch, h1, h2⟩ := exists_drop_eq_cons htake hm hn
        have hread : run.state.action (e.code program) ',' = .ok (.read ch) := by
          rw [action_read hmode, hin, h1]
        refine ⟨?_, fun a ha => ?_⟩
        · rw [hread, h2]
          exact action_read (s := run.state.withInput (ch :: _)) hmode
        · rw [hread] at ha
          cases ha
          rw [Action.onInput, List.tail_drop]

theorem takes_of_reads {code : Code} {controls : Controls} (hr : run.reads code controls = true) :
    run.Takes code controls (run.state.perform (match run.state.input with | [] => .readNothing | c :: _ => .read c)) := by
  obtain ⟨hc, hm, href⟩ := reads_iff.mp hr
  exact ⟨',', _, hc, href, action_read hm, rfl⟩

end

/-- **Input is read in order, and what is not read does not show.** Another input with the same first
characters, as many as are read, leads to the same end and the same record. The `,` with number `k`
stores the character with number `k`; when there is none, only the place changes. -/
theorem unread_input_unseen (e : Engine) (given : Controls) (sink : Option Sink) (program input : String) :
    (∀ n m input', e.reads given sink program input n ≤ m → m ≤ input.length →
      input'.toList.take m = input.toList.take m →
      e.execute n given sink program input' = e.execute n given sink program input ∧
        (e.progress n given sink program input').sink = (e.progress n given sink program input).sink) ∧
    (∀ n run, e.progress n given sink program input = .running run →
      run.reads (e.code program) (e.controls given) = true →
      ∃ s, run.Takes (e.code program) (e.controls given) s ∧
        (∀ c, input.toList[e.reads given sink program input n]? = some c →
          s = { run.state with
            ip := run.state.ip + 1
            tape := { run.state.tape with current := e.cellWidth.reduce c.toNat }
            input := input.toList.drop (e.reads given sink program input n + 1) }) ∧
        (input.length ≤ e.reads given sink program input n →
          s = { run.state with ip := run.state.ip + 1 })) := by
  refine ⟨fun n m input' hn hm htake => ?_, fun n run hp hr => ?_⟩
  · have h := progress_withInput hm htake hn
    refine ⟨?_, ?_⟩
    · rw [execute, h, ending?_withInput]
      rfl
    · rw [h, sink_withInput]
  · have hin := input_eq_drop hp
    refine ⟨_, takes_of_reads hr, fun c hc => ?_, fun hlen => ?_⟩
    · have hcons : run.state.input = c :: input.toList.drop (e.reads given sink program input n + 1) := by
        rw [hin, List.drop_eq_getElem?_toList_append, hc]
        rfl
      have hwidth := (fits_of_reaches (reaches_of_progress hp).1).width
      simp [hcons, State.perform, Tape.set, hwidth]
    · have hnil : run.state.input = [] := by
        rw [hin, List.drop_eq_nil_iff]
        exact hlen
      simp [hnil, State.perform]

theorem unread_input_unseen_one_read :
    standard.reads Controls.none (some Sink.unbounded) ",." "xy" 3 = 1 ∧
      standard.execute 3 Controls.none (some Sink.unbounded) ",." "xz" =
        standard.execute 3 Controls.none (some Sink.unbounded) ",." "xy" := by
  have h : standard.reads Controls.none (some Sink.unbounded) ",." "xy" 3 = 1 := by rfl
  exact ⟨h, ((unread_input_unseen standard Controls.none (some Sink.unbounded) ",." "xy").1 3 1 "xz" h.le
    (by decide) (by decide)).1⟩

end Engine

end Brainfuck
