import Brainfuck.Engine
import Brainfuck.Proofs.Halting

/-!
# The record of an execution

The first steps of a machine have rows, whoever limits the run, calls it off or records it
(`rowsFrom`). As long as nothing from outside has ended an execution, it is where the
machine is after as many steps, and its sink holds the header and the rows of these steps
(`Engine.progress_eq`). It ends where the machine does (`Engine.ends_of_halts`), where it may
not go on (`Engine.endsAfter_of_refusal`), or where its sink has no room for the next row
(`Engine.ends_of_full`). When nobody calls it off and there is room enough, that leaves the end
of the machine and the limit (`Engine.ends_iff`).
-/

namespace Brainfuck

/-! ## Rows -/

/-- The rows of the first `n` steps from a state, numbered from `k` on. There are fewer when the
machine ends before; a step that fails has none. -/
def rowsFrom (code : Code) : Nat → Nat → State → List Row
  | 0, _, _ => []
  | n + 1, k, s =>
    match code.text[s.ip]? with
    | none => []
    | some c =>
      match s.action code c with
      | .error _ => []
      | .ok a =>
        Row.ofStep k s.ip s.tape (s.perform a).tape c a :: rowsFrom code n (k + 1) (s.perform a)

section
variable {code : Code} {s t : State} {m n : Nat} {c : Char} {a : Action}

theorem rowsFrom_step (hc : code.text[s.ip]? = some c) (ha : s.action code c = .ok a) (n k : Nat) :
    rowsFrom code (n + 1) k s =
      Row.ofStep k s.ip s.tape (s.perform a).tape c a :: rowsFrom code n (k + 1) (s.perform a) := by
  rw [rowsFrom, hc]
  simp only [ha]

theorem length_rowsFrom (h : Reaches code n s t) (k : Nat) : (rowsFrom code n k s).length = n := by
  induction h generalizing k with
  | refl s => rfl
  | step hc ha _ ih => rw [rowsFrom_step hc ha, List.length_cons, ih]

theorem rowsFrom_snoc (h : Reaches code n s t) (hc : code.text[t.ip]? = some c)
    (ha : t.action code c = .ok a) (k : Nat) :
    rowsFrom code (n + 1) k s =
      rowsFrom code n k s ++ [Row.ofStep (k + n) t.ip t.tape (t.perform a).tape c a] := by
  induction h generalizing k with
  | refl s => rw [rowsFrom_step hc ha]; rfl
  | step hc' ha' _ ih =>
    rw [rowsFrom_step hc' ha', ih hc ha, rowsFrom_step hc' ha', Nat.add_right_comm, Nat.add_assoc]
    rfl

theorem rowsFrom_fail {u : Unmatched} (h : Reaches code n s t) (hc : code.text[t.ip]? = some c)
    (ha : t.action code c = .error u) (k : Nat) : rowsFrom code (n + 1) k s = rowsFrom code n k s := by
  induction h generalizing k with
  | refl s => simp [rowsFrom, hc, ha]
  | step hc' ha' _ ih => rw [rowsFrom_step hc' ha', ih hc ha, rowsFrom_step hc' ha']

theorem take_rowsFrom (h : m ≤ n) (k : Nat) (s : State) :
    (rowsFrom code n k s).take m = rowsFrom code m k s := by
  induction n generalizing m k s with
  | zero =>
    have : m = 0 := by omega
    subst this; rfl
  | succ n ih =>
    cases m with
    | zero => rfl
    | succ m =>
      cases hc : code.text[s.ip]? with
      | none => simp [rowsFrom, hc]
      | some c =>
        cases ha : s.action code c with
        | error u => simp [rowsFrom, hc, ha]
        | ok a => rw [rowsFrom_step hc ha, rowsFrom_step hc ha, List.take_succ_cons, ih (by omega)]

theorem length_rowsFrom_le (code : Code) (n k : Nat) (s : State) : (rowsFrom code n k s).length ≤ n := by
  have h : ((rowsFrom code n k s).take n).length = (rowsFrom code n k s).length := by
    rw [take_rowsFrom (Nat.le_refl n)]
  rw [List.length_take] at h
  omega

end

def Row.table (rows : List Row) : String :=
  Row.header ++ String.join (rows.map Row.render)

theorem Row.table_append (rows more : List Row) :
    Row.table (rows ++ more) = Row.table rows ++ String.join (more.map Row.render) := by
  simp [Row.table, String.append_assoc]

theorem Row.table_snoc (rows : List Row) (row : Row) :
    Row.table (rows ++ [row]) = Row.table rows ++ row.render := by
  simp [Row.table_append]

theorem Row.render_ne_empty (r : Row) : r.render ≠ "" := by
  simp [render]

namespace Engine

def rows (e : Engine) (program input : String) (n : Nat) : List Row :=
  rowsFrom (e.code program) n 0 (e.initial input)

def record (e : Engine) (program input : String) (n : Nat) : String :=
  Row.table (e.rows program input n)

section
variable {e : Engine} {program input : String} {m n : Nat} {t : State} {c : Char} {a : Action}

theorem record_zero : e.record program input 0 = Row.header := by
  simp [record, rows, rowsFrom, Row.table]

theorem record_succ (h : Reaches (e.code program) n (e.initial input) t)
    (hc : (e.code program).text[t.ip]? = some c) (ha : t.action (e.code program) c = .ok a) :
    e.record program input (n + 1) =
      e.record program input n ++ (Row.ofStep n t.ip t.tape (t.perform a).tape c a).render := by
  rw [record, rows, rowsFrom_snoc h hc ha, Row.table_snoc, Nat.zero_add]
  rfl

theorem length_rows (h : Reaches (e.code program) n (e.initial input) t) :
    (e.rows program input n).length = n :=
  length_rowsFrom h 0

theorem rows_fail {u : Unmatched} (h : Reaches (e.code program) n (e.initial input) t)
    (hc : (e.code program).text[t.ip]? = some c) (ha : t.action (e.code program) c = .error u) :
    e.rows program input (n + 1) = e.rows program input n :=
  rowsFrom_fail h hc ha 0

theorem take_rows (h : m ≤ n) : (e.rows program input n).take m = e.rows program input m :=
  take_rowsFrom h 0 _

theorem getElem?_rows (h : Reaches (e.code program) m (e.initial input) t)
    (hc : (e.code program).text[t.ip]? = some c) (ha : t.action (e.code program) c = .ok a) (hm : m < n) :
    (e.rows program input n)[m]? = some (Row.ofStep m t.ip t.tape (t.perform a).tape c a) := by
  have hrows : e.rows program input (m + 1) = e.rows program input m ++ _ := rowsFrom_snoc h hc ha 0
  rw [← List.getElem?_take_of_lt (Nat.lt_succ_self m), take_rows hm, hrows, Nat.zero_add]
  rw [List.getElem?_append_right (Nat.le_of_eq (length_rows h)), length_rows h, Nat.sub_self]
  rfl

theorem rows_length_rows : e.rows program input (e.rows program input n).length = e.rows program input n := by
  have hle : (e.rows program input n).length ≤ n := length_rowsFrom_le ..
  rw [← take_rows hle, List.take_length]

theorem record_append_of_le (h : m ≤ n) :
    ∃ more, e.record program input n = e.record program input m ++ more := by
  refine ⟨String.join (((e.rows program input n).drop m).map Row.render), ?_⟩
  rw [record, record, ← Row.table_append, ← take_rows h, List.take_append_drop]

theorem utf8ByteSize_record_mono (h : m ≤ n) :
    (e.record program input m).utf8ByteSize ≤ (e.record program input n).utf8ByteSize := by
  obtain ⟨more, hmore⟩ : ∃ more, e.record program input n = e.record program input m ++ more :=
    record_append_of_le h
  rw [hmore, String.utf8ByteSize_append]
  exact Nat.le_add_right ..

end

end Engine

/-! ## Steps of a run -/

theorem Run.complete_eq_running {run run' : Run} {c : Char} {a : Action}
    (h : run.complete c a = .running run') :
    run' = { steps := run.steps + 1
             state := run.state.perform a
             sink := run.sink.map (·.write
               (Row.ofStep run.steps run.state.ip run.state.tape (run.state.perform a).tape c a).render) } := by
  unfold Run.complete at h
  split at h
  · cases h; rfl
  · simp only at h
    split at h
    · cases h
    · cases h; rfl

theorem Run.next_eq_running {code : Code} {controls : Controls} {run run' : Run}
    (h : run.next code controls = .running run') :
    ∃ c a, code.text[run.state.ip]? = some c ∧ run.refusal? controls = none ∧
      run.state.action code c = .ok a ∧ run.complete c a = .running run' := by
  unfold Run.next at h
  split at h
  · cases h
  · rename_i c hc
    split at h
    · cases h
    · rename_i hr
      split at h
      · cases h
      · rename_i a ha
        exact ⟨c, a, hc, hr, ha, h⟩

theorem Run.next_eq_ended_ok {code : Code} {controls : Controls} {run : Run} {o : String} {sink : Option Sink}
    (h : run.next code controls = .ended { result := .ok o, sink }) :
    code.text[run.state.ip]? = none ∧ run.state.finish = .ok o := by
  unfold Run.next at h
  split at h
  · rename_i hc
    refine ⟨hc, ?_⟩
    cases hf : run.state.finish with
    | error u => rw [hf] at h; cases h
    | ok o' => rw [hf] at h; cases h; rfl
  · split at h
    · cases h
    · split at h
      · cases h
      · unfold Run.complete at h
        split at h
        · cases h
        · simp only at h
          split at h <;> cases h

theorem reaches_of_advance {code : Code} {controls : Controls} {n : Nat} {run run' : Run}
    (h : Progress.advance code controls n (.running run) = .running run') :
    Reaches code n run.state run'.state ∧ run'.steps = run.steps + n := by
  induction n generalizing run with
  | zero =>
    rw [Progress.advance_zero] at h; cases h
    exact ⟨.refl _, rfl⟩
  | succ n ih =>
    rw [Progress.advance_succ_running] at h
    cases hn : run.next code controls with
    | ended e => rw [hn, Progress.advance_ended] at h; cases h
    | running next =>
      rw [hn] at h
      obtain ⟨c, a, hc, -, ha, hcomplete⟩ := Run.next_eq_running hn
      obtain ⟨hr, hk⟩ := ih h
      rw [Run.complete_eq_running hcomplete] at hr hk
      simp only at hr hk
      exact ⟨.step hc ha hr, by omega⟩

theorem exists_running_of_ended {code : Code} {controls : Controls} {n : Nat} {run : Run} {ending : Ending}
    (h : Progress.advance code controls n (.running run) = .ended ending) :
    ∃ k last, Progress.advance code controls k (.running run) = .running last ∧
      last.next code controls = .ended ending := by
  induction n generalizing run with
  | zero => rw [Progress.advance_zero] at h; cases h
  | succ n ih =>
    rw [Progress.advance_succ_running] at h
    cases hn : run.next code controls with
    | ended e =>
      rw [hn, Progress.advance_ended] at h; cases h
      exact ⟨0, run, rfl, hn⟩
    | running next =>
      rw [hn] at h
      obtain ⟨k, last, hk, hlast⟩ := ih h
      exact ⟨k + 1, last, by rw [Progress.advance_succ_running, hn, hk], hlast⟩

theorem Progress.start_eq_running {state : State} {sink : Option Sink} {run : Run}
    (h : Progress.start state sink = .running run) :
    run = { steps := 0, state, sink := sink.map (·.write Row.header) } := by
  cases sink with
  | none => cases h; rfl
  | some sink =>
    simp only [Progress.start] at h
    split at h
    · cases h
    · cases h; rfl

/-- **Reached states.** Whatever ends an execution from outside and wherever it is recorded, the
states it passes through are those that the machine reaches. -/
theorem Engine.reaches_of_progress {e : Engine} {n : Nat} {given : Controls} {sink : Option Sink}
    {program input : String} {run : Run} (h : e.progress n given sink program input = .running run) :
    Reaches (e.code program) n (e.initial input) run.state ∧ run.steps = n := by
  unfold Engine.progress at h
  cases hs : Progress.start (e.initial input) sink with
  | ended end' => rw [hs, Progress.advance_ended] at h; cases h
  | running first =>
    rw [hs] at h
    obtain ⟨hr, hk⟩ := reaches_of_advance h
    rw [Progress.start_eq_running hs] at hr hk
    simp only [Nat.zero_add] at hr hk
    exact ⟨hr, hk⟩

/-! ## What a step comes to -/

section
variable {code : Code} {controls : Controls} {run : Run} {c : Char} {a : Action}

theorem next_end (hc : code.text[run.state.ip]? = none) :
    run.next code controls = .ended { result := run.state.finish.mapError .unmatched, sink := run.sink } := by
  simp only [Run.next, hc]

theorem next_refused {cause : RunError} (hc : code.text[run.state.ip]? = some c)
    (hr : run.refusal? controls = some cause) :
    run.next code controls = .ended { result := .error cause, sink := run.sink } := by
  simp only [Run.next, hc, hr]

theorem next_fail {u : Unmatched} (hc : code.text[run.state.ip]? = some c)
    (hr : run.refusal? controls = none) (ha : run.state.action code c = .error u) :
    run.next code controls = .ended { result := .error (.unmatched u), sink := run.sink } := by
  simp only [Run.next, hc, hr, ha]

theorem next_complete (hc : code.text[run.state.ip]? = some c) (hr : run.refusal? controls = none)
    (ha : run.state.action code c = .ok a) : run.next code controls = run.complete c a := by
  simp only [Run.next, hc, hr, ha]

end

def HasRoom (sink : Option Sink) (text : String) : Prop :=
  ∀ s ∈ sink, (s.write text).isFull = false

theorem hasRoom_none (text : String) : HasRoom none text := by
  intro s hs
  cases hs

theorem hasRoom_unbounded (text : String) : HasRoom (some Sink.unbounded) text := by
  intro s hs
  cases hs
  rfl

theorem hasRoom_map_write {sink : Option Sink} {text more : String} :
    HasRoom (sink.map (·.write text)) more ↔ HasRoom sink (text ++ more) := by
  cases sink <;> simp [HasRoom]

theorem HasRoom.of_append {sink : Option Sink} {text more : String} (h : HasRoom sink (text ++ more)) :
    HasRoom sink text := by
  intro s hs
  have hfull := h s hs
  rw [← Sink.write_write] at hfull
  cases hw : (s.write text).isFull with
  | false => rfl
  | true => rw [Sink.isFull_write hw] at hfull; cases hfull

theorem Progress.start_of_room {sink : Option Sink} (h : HasRoom sink Row.header) (state : State) :
    Progress.start state sink = .running { steps := 0, state, sink := sink.map (·.write Row.header) } := by
  cases sink with
  | none => rfl
  | some s => simp [Progress.start, h s rfl]

namespace Run

variable {steps : Nat} {state : State} {c : Char} {a : Action} {text : String}

theorem complete_of_room {sink : Option Sink}
    (htext : (Row.ofStep steps state.ip state.tape (state.perform a).tape c a).render = text)
    (h : HasRoom sink text) :
    complete { steps, state, sink } c a =
      .running { steps := steps + 1, state := state.perform a, sink := sink.map (·.write text) } := by
  subst htext
  cases sink with
  | none => rfl
  | some s => simp [complete, h s rfl]

theorem complete_of_full {sink : Sink}
    (htext : (Row.ofStep steps state.ip state.tape (state.perform a).tape c a).render = text)
    (h : (sink.write text).isFull = true) :
    complete { steps, state, sink := some sink } c a =
      .ended { result := .error (.trace state.ip sink.fault), sink := some (sink.write text) } := by
  subst htext
  simp only [complete, h, if_true]
  rfl

theorem sink_of_next {code : Code} {controls : Controls} {run : Run} {ending : Ending}
    (hroom : ∀ text, HasRoom run.sink text) (h : run.next code controls = .ended ending) :
    ending.sink = run.sink := by
  unfold next at h
  split at h
  · cases h; rfl
  · split at h
    · cases h; rfl
    · split at h
      · cases h; rfl
      · rw [complete_of_room rfl (hroom _)] at h
        cases h

end Run

/-! ## Executions -/

theorem ending?_eq_some_iff {p : Progress} {ending : Ending} :
    p.ending? = some ending ↔ p = .ended ending := by
  cases p with
  | running run => exact iff_of_false (fun h => nomatch h) (fun h => nomatch h)
  | ended e => simp [Progress.ending?]

namespace Engine

def Ends (e : Engine) (given : Controls) (sink : Option Sink) (program input : String)
    (ending : Ending) : Prop :=
  ∃ n, e.execute n given sink program input = some ending

def EndsAfter (e : Engine) (given : Controls) (sink : Option Sink) (program input : String) (k : Nat)
    (ending : Ending) : Prop :=
  ∃ run, e.progress k given sink program input = .running run ∧
    run.next (e.code program) (e.controls given) = .ended ending

def runAt (e : Engine) (sink : Option Sink) (program input : String) (n : Nat) (t : State) : Run where
  steps := n
  state := t
  sink := sink.map (·.write (e.record program input n))

/-- Nothing from outside refuses one of the first `n` steps. -/
def Free (e : Engine) (given : Controls) (sink : Option Sink) (program input : String) (n : Nat) : Prop :=
  ∀ k < n, ∀ t, (e.runAt sink program input k t).refusal? (e.controls given) = none

section
variable {e : Engine} {given : Controls} {sink : Option Sink} {program input : String} {m n : Nat} {t : State}
  {c : Char} {a : Action} {ending : Ending}

theorem Ends.unique {ending' : Ending} (h : e.Ends given sink program input ending)
    (h' : e.Ends given sink program input ending') : ending = ending' := by
  obtain ⟨m, hm⟩ := h
  obtain ⟨n, hn⟩ := h'
  unfold execute progress at hm hn
  rw [ending?_eq_some_iff] at hm hn
  have h1 := Progress.advance_mono _ _ (Nat.le_max_left m n) hm
  have h2 := Progress.advance_mono _ _ (Nat.le_max_right m n) hn
  rw [h1] at h2
  cases h2; rfl

theorem Free.mono (h : e.Free given sink program input n) (hm : m ≤ n) : e.Free given sink program input m :=
  fun k hk => h k (Nat.lt_of_lt_of_le hk hm)

theorem progress_zero : e.progress 0 given sink program input = Progress.start (e.initial input) sink :=
  Progress.advance_zero ..

theorem progress_succ {run : Run} (h : e.progress n given sink program input = .running run) :
    e.progress (n + 1) given sink program input = run.next (e.code program) (e.controls given) := by
  unfold progress at h ⊢
  rw [Progress.advance_add, h, Progress.advance_succ_running, Progress.advance_zero]

theorem progress_of_ended (h : e.progress n given sink program input = .ended ending) :
    e.progress (n + 1) given sink program input = .ended ending :=
  Progress.advance_mono _ _ (Nat.le_succ n) h

theorem progress_succ_eq_running {run' : Run} (h : e.progress (n + 1) given sink program input = .running run') :
    ∃ run, e.progress n given sink program input = .running run ∧
      run.next (e.code program) (e.controls given) = .running run' := by
  cases hp : e.progress n given sink program input with
  | ended ending => rw [progress_of_ended hp] at h; cases h
  | running run =>
    rw [progress_succ hp] at h
    exact ⟨run, rfl, h⟩

theorem progress_eq_running_of_le {run : Run} (h : e.progress n given sink program input = .running run)
    (hm : m ≤ n) : ∃ run', e.progress m given sink program input = .running run' := by
  cases hp : e.progress m given sink program input with
  | running run' => exact ⟨run', rfl⟩
  | ended ending =>
    rw [progress, Progress.advance_mono _ _ hm hp] at h
    cases h

theorem EndsAfter.ends (h : e.EndsAfter given sink program input n ending) :
    e.Ends given sink program input ending := by
  obtain ⟨run, hp, hn⟩ := h
  refine ⟨n + 1, ?_⟩
  unfold execute
  rw [progress_succ hp, hn]
  rfl

theorem Ends.exists_after (hroom : HasRoom sink Row.header) (h : e.Ends given sink program input ending) :
    ∃ k, e.EndsAfter given sink program input k ending := by
  obtain ⟨n, hn⟩ := h
  have hended := ending?_eq_some_iff.mp hn
  rw [progress, Progress.start_of_room hroom] at hended
  obtain ⟨k, last, hk, hlast⟩ := exists_running_of_ended hended
  rw [← Progress.start_of_room hroom] at hk
  exact ⟨k, last, hk, hlast⟩

theorem runAt_next (h : Reaches (e.code program) n (e.initial input) t)
    (hc : (e.code program).text[t.ip]? = some c) (ha : t.action (e.code program) c = .ok a)
    (hfree : (e.runAt sink program input n t).refusal? (e.controls given) = none)
    (hroom : HasRoom sink (e.record program input (n + 1))) :
    (e.runAt sink program input n t).next (e.code program) (e.controls given) =
      .running (e.runAt sink program input (n + 1) (t.perform a)) := by
  rw [next_complete hc hfree ha]
  rw [record_succ h hc ha] at hroom
  unfold runAt
  rw [Run.complete_of_room rfl (hasRoom_map_write.mpr hroom), record_succ h hc ha]
  cases sink <;> simp

/-- **Where an execution is.** Until something from outside ends it, an execution is where the machine
is after as many steps, and its sink holds the record of them. -/
theorem progress_eq (h : Reaches (e.code program) n (e.initial input) t)
    (hfree : e.Free given sink program input n) (hroom : HasRoom sink (e.record program input n)) :
    e.progress n given sink program input = .running (e.runAt sink program input n t) := by
  induction n generalizing t with
  | zero =>
    cases h
    rw [record_zero] at hroom
    rw [progress_zero, Progress.start_of_room hroom, runAt, record_zero]
  | succ n ih =>
    obtain ⟨u, c, a, hr, hc, ha, rfl⟩ := h.exists_snoc
    have hrec := record_succ hr hc ha
    have hroom' : HasRoom sink (e.record program input n) := by
      rw [hrec] at hroom
      exact hroom.of_append
    rw [progress_succ (ih hr (hfree.mono (Nat.le_succ n)) hroom')]
    exact runAt_next hr hc ha (hfree n (Nat.lt_succ_self n) u) hroom

theorem progress_eq_runAt {run : Run} (h : e.progress n given sink program input = .running run) :
    run = e.runAt sink program input n run.state := by
  induction n generalizing run with
  | zero =>
    rw [progress_zero] at h
    rw [Progress.start_eq_running h, runAt, record_zero]
  | succ n ih =>
    obtain ⟨prev, hprev, hnext⟩ := progress_succ_eq_running h
    obtain ⟨c, a, hc, -, ha, hcomplete⟩ := Run.next_eq_running hnext
    obtain ⟨hr, hk⟩ := reaches_of_progress hprev
    have hsink : prev.sink = sink.map (·.write (e.record program input n)) := by rw [ih hprev]; rfl
    rw [Run.complete_eq_running hcomplete, runAt, record_succ hr hc ha, hk, hsink]
    cases sink <;> simp

theorem EndsAfter.sink_eq (hroom : ∀ text, HasRoom sink text) (h : e.EndsAfter given sink program input n ending) :
    ending.sink = sink.map (·.write (e.record program input n)) := by
  obtain ⟨run, hp, hn⟩ := h
  have hsink : run.sink = sink.map (·.write (e.record program input n)) := by rw [progress_eq_runAt hp]; rfl
  rw [← hsink]
  apply Run.sink_of_next _ hn
  intro text
  rw [hsink, hasRoom_map_write]
  exact hroom _

theorem endsAfter_of_halts {r : Except Unmatched String}
    (h : Halts (e.code program) (e.initial input) n r) (hfree : e.Free given sink program input n)
    (hroom : HasRoom sink (e.record program input n)) :
    e.EndsAfter given sink program input (e.rows program input n).length
      { result := r.mapError .unmatched, sink := sink.map (·.write (e.record program input n)) } := by
  obtain ⟨t, k, hr, ⟨hc, rfl, rfl⟩ | ⟨c, u, hc, ha, rfl, rfl⟩⟩ := h.exists_last
  · rw [length_rows hr]
    exact ⟨_, progress_eq hr hfree hroom, next_end hc⟩
  · -- the step that fails has no row, and the execution ends where it stood before
    have hrec : e.record program input (k + 1) = e.record program input k := by
      rw [record, record, rows_fail hr hc ha]
    rw [hrec] at hroom ⊢
    rw [rows_fail hr hc ha, length_rows hr]
    exact ⟨_, progress_eq hr (hfree.mono (Nat.le_succ k)) hroom,
      next_fail hc (hfree k (Nat.lt_succ_self k) t) ha⟩

theorem ends_of_halts {r : Except Unmatched String}
    (h : Halts (e.code program) (e.initial input) n r) (hfree : e.Free given sink program input n)
    (hroom : HasRoom sink (e.record program input n)) :
    e.Ends given sink program input
      { result := r.mapError .unmatched, sink := sink.map (·.write (e.record program input n)) } :=
  (endsAfter_of_halts h hfree hroom).ends

theorem endsAfter_of_refusal {cause : RunError} (h : Busy (e.code program) (e.initial input) n)
    (hfree : e.Free given sink program input n) (hroom : HasRoom sink (e.record program input n))
    (hr : ∀ t, (e.runAt sink program input n t).refusal? (e.controls given) = some cause) :
    e.EndsAfter given sink program input n
      { result := .error cause, sink := sink.map (·.write (e.record program input n)) } := by
  obtain ⟨t, c, ht, hc⟩ := h
  exact ⟨_, progress_eq ht hfree hroom, next_refused hc (hr t)⟩

theorem ends_of_full_header {s : Sink} (h : (s.write Row.header).isFull = true) :
    e.Ends given (some s) program input
      { result := .error (.trace 0 s.fault), sink := some (s.write Row.header) } := by
  refine ⟨0, ?_⟩
  simp only [execute, progress, Progress.start, h, if_true]
  rfl

theorem ends_of_full {s : Sink} (h : Reaches (e.code program) (n + 1) (e.initial input) t)
    (hfree : e.Free given (some s) program input (n + 1))
    (hroom : HasRoom (some s) (e.record program input n))
    (hfull : (s.write (e.record program input (n + 1))).isFull = true) :
    ∃ row, e.rows program input (n + 1) = e.rows program input n ++ [row] ∧
      e.Ends given (some s) program input
        { result := .error (.trace row.ip s.fault), sink := some (s.write (e.record program input (n + 1))) } := by
  obtain ⟨u, c, a, hr, hc, ha, rfl⟩ := h.exists_snoc
  refine ⟨_, rowsFrom_snoc hr hc ha 0, ?_⟩
  have hnext := next_complete hc (hfree n (Nat.lt_succ_self n) u) ha
  rw [record_succ hr hc ha, ← Sink.write_write] at hfull ⊢
  rw [show (e.runAt (some s) program input n u).complete c a = _ from Run.complete_of_full rfl hfull] at hnext
  exact EndsAfter.ends ⟨_, progress_eq hr (hfree.mono (Nat.le_succ n)) hroom, hnext⟩

end

end Engine

/-! ## Executions that are not called off -/

def Controls.NeverCancels (controls : Controls) : Prop :=
  ∀ k record, controls.cancelled k record = false

theorem Controls.neverCancels_none : Controls.none.NeverCancels :=
  fun _ _ => rfl

theorem refusal?_eq_none {controls : Controls} {run : Run}
    (hcancel : controls.cancelled run.steps run.record = false)
    (hk : ∀ N, controls.maxSteps = some N → run.steps < N) : run.refusal? controls = none := by
  unfold Run.refusal?
  rw [hcancel, if_neg Bool.false_ne_true]
  cases hN : controls.maxSteps with
  | none => rfl
  | some N => exact if_neg (Nat.not_le.mpr (hk N hN))

theorem refusal?_eq_limit {controls : Controls} {run : Run} {N : Nat}
    (hcancel : controls.cancelled run.steps run.record = false) (hN : controls.maxSteps = some N)
    (hk : N ≤ run.steps) : run.refusal? controls = some (.stepLimitExceeded N) := by
  simp [Run.refusal?, hcancel, hN, hk]

theorem Run.lt_limit_of_refusal? {controls : Controls} {run : Run} {N : Nat} (hN : controls.maxSteps = some N)
    (h : run.refusal? controls = none) : run.steps < N := by
  unfold Run.refusal? at h
  rw [hN] at h
  split at h
  · cases h
  · by_cases hle : N ≤ run.steps
    · simp [hle] at h
    · exact Nat.lt_of_not_le hle

namespace Engine

theorem exists_ends_of_limit {e : Engine} {given : Controls} {sink : Option Sink} {program input : String}
    {N : Nat} (hN : given.maxSteps.or e.maxSteps = some N) : ∃ ending, e.Ends given sink program input ending := by
  cases hp : e.progress (N + 1) given sink program input with
  | ended ending => exact ⟨ending, N + 1, ending?_eq_some_iff.mpr hp⟩
  | running run =>
    obtain ⟨prev, hprev, hnext⟩ := progress_succ_eq_running hp
    obtain ⟨c, a, -, hr, -, -⟩ := Run.next_eq_running hnext
    have hlt := Run.lt_limit_of_refusal? hN hr
    rw [(reaches_of_progress hprev).2] at hlt
    exact absurd hlt (Nat.lt_irrefl N)

def Uncancelled (e : Engine) (given : Controls) (sink : Option Sink) (program input : String) (n : Nat) : Prop :=
  ∀ k < n, ∀ t, given.cancelled k (e.runAt sink program input k t).record = false

section
variable {e : Engine} {given : Controls} {sink : Option Sink} {program input : String} {m n : Nat} {t : State}
  {ending : Ending}

theorem execute_eq_none (h : Reaches (e.code program) n (e.initial input) t)
    (hfree : e.Free given sink program input n) (hroom : HasRoom sink (e.record program input n)) :
    e.execute n given sink program input = none := by
  unfold execute
  rw [progress_eq h hfree hroom]
  rfl

theorem Uncancelled.mono (h : e.Uncancelled given sink program input n) (hm : m ≤ n) :
    e.Uncancelled given sink program input m :=
  fun k hk => h k (Nat.lt_of_lt_of_le hk hm)

theorem Uncancelled.free (h : e.Uncancelled given sink program input n)
    (hn : ∀ N, given.maxSteps.or e.maxSteps = some N → n ≤ N) : e.Free given sink program input n := by
  intro k hk t
  apply refusal?_eq_none
  · exact h k hk t
  · intro N hN
    exact Nat.lt_of_lt_of_le hk (hn N hN)

theorem Uncancelled.endsAfter_of_limit {N : Nat} (hun : e.Uncancelled given sink program input (N + 1))
    (hN : given.maxSteps.or e.maxSteps = some N) (h : Busy (e.code program) (e.initial input) N)
    (hroom : HasRoom sink (e.record program input N)) :
    e.EndsAfter given sink program input N
      { result := .error (.stepLimitExceeded N), sink := sink.map (·.write (e.record program input N)) } := by
  apply endsAfter_of_refusal h
  · apply (hun.mono (Nat.le_succ N)).free
    intro N' hN'
    rw [hN] at hN'; cases hN'
    exact Nat.le_refl N
  · exact hroom
  · intro t
    exact refusal?_eq_limit (hun N (Nat.lt_succ_self N) t) hN (Nat.le_refl N)

variable (hgiven : given.NeverCancels)
include hgiven

theorem uncancelled_of_never (n : Nat) : e.Uncancelled given sink program input n :=
  fun _ _ _ => hgiven _ _

theorem free_of_le (hn : ∀ N, given.maxSteps.or e.maxSteps = some N → n ≤ N) :
    e.Free given sink program input n :=
  (uncancelled_of_never hgiven n).free hn

theorem endsAfter_of_limit {N : Nat} (hN : given.maxSteps.or e.maxSteps = some N)
    (h : Busy (e.code program) (e.initial input) N) (hroom : HasRoom sink (e.record program input N)) :
    e.EndsAfter given sink program input N
      { result := .error (.stepLimitExceeded N), sink := sink.map (·.write (e.record program input N)) } :=
  (uncancelled_of_never hgiven (N + 1)).endsAfter_of_limit hN h hroom

theorem ends_of_limit {N : Nat} (hN : given.maxSteps.or e.maxSteps = some N)
    (h : Busy (e.code program) (e.initial input) N) (hroom : HasRoom sink (e.record program input N)) :
    e.Ends given sink program input
      { result := .error (.stepLimitExceeded N), sink := sink.map (·.write (e.record program input N)) } :=
  (endsAfter_of_limit hgiven hN h hroom).ends

theorem execute_eq_none_of_busy (hmax : given.maxSteps.or e.maxSteps = none)
    (hbusy : ∀ n, Busy (e.code program) (e.initial input) n)
    (hroom : ∀ n, HasRoom sink (e.record program input n)) (n : Nat) :
    e.execute n given sink program input = none := by
  obtain ⟨t, c, hr, -⟩ := hbusy n
  apply execute_eq_none hr
  · apply free_of_le hgiven
    intro N hN
    rw [hmax] at hN; cases hN
  · exact hroom n

/-- **What an execution comes to.** It is what the machine comes to, when there are steps enough for
that, and else the limit; the record is that of the steps taken. -/
theorem ends_iff (hroom : ∀ n, HasRoom sink (e.record program input n)) :
    e.Ends given sink program input ending ↔
      (∃ n r, Halts (e.code program) (e.initial input) n r ∧
        (∀ N, given.maxSteps.or e.maxSteps = some N → n ≤ N) ∧
        ending = { result := r.mapError .unmatched, sink := sink.map (·.write (e.record program input n)) }) ∨
      (∃ N, given.maxSteps.or e.maxSteps = some N ∧ Busy (e.code program) (e.initial input) N ∧
        ending = { result := .error (.stepLimitExceeded N),
                   sink := sink.map (·.write (e.record program input N)) }) := by
  constructor
  · intro h
    rcases halts_or_busy (e.code program) (e.initial input) (given.maxSteps.or e.maxSteps) with
      ⟨n, r, hr, hn⟩ | ⟨N, hN, hbusy⟩ | ⟨hmax, hbusy⟩
    · exact Or.inl ⟨n, r, hr, hn, h.unique (ends_of_halts hr (free_of_le hgiven hn) (hroom n))⟩
    · exact Or.inr ⟨N, hN, hbusy, h.unique (ends_of_limit hgiven hN hbusy (hroom N))⟩
    · obtain ⟨m, hm⟩ := h
      rw [execute_eq_none_of_busy hgiven hmax hbusy hroom m] at hm
      cases hm
  · rintro (⟨n, r, hr, hn, rfl⟩ | ⟨N, hN, hbusy, rfl⟩)
    · exact ends_of_halts hr (free_of_le hgiven hn) (hroom n)
    · exact ends_of_limit hgiven hN hbusy (hroom N)

end

/-- The execution comes to `result`, and the sink that has room for everything then holds `record`. -/
def Records (e : Engine) (given : Controls) (program input : String) (result : Except RunError String)
    (record : String) : Prop :=
  e.Ends given (some Sink.unbounded) program input
    { result, sink := some (Sink.unbounded.write record) }

def Writes (e : Engine) (given : Controls) (program input : String) (n : Nat) (record : String) : Prop :=
  ∃ run, e.progress n given (some Sink.unbounded) program input = .running run ∧
    run.sink = some (Sink.unbounded.write record)

theorem records_iff {e : Engine} {given : Controls} {program input record : String}
    {result : Except RunError String} (hgiven : given.NeverCancels) :
    e.Records given program input result record ↔
      (∃ n r, Halts (e.code program) (e.initial input) n r ∧
        (∀ N, given.maxSteps.or e.maxSteps = some N → n ≤ N) ∧
        result = r.mapError .unmatched ∧ record = e.record program input n) ∨
      (∃ N, given.maxSteps.or e.maxSteps = some N ∧ Busy (e.code program) (e.initial input) N ∧
        result = .error (.stepLimitExceeded N) ∧ record = e.record program input N) := by
  unfold Records
  rw [ends_iff hgiven fun n => hasRoom_unbounded _]
  simp [Sink.write]

end Engine

end Brainfuck
