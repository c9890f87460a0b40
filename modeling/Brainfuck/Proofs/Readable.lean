import Brainfuck.Proofs.Control
import Brainfuck.Proofs.Record
import Brainfuck.Text.Blank
import Brainfuck.Text.Lines

/-!
# Reading a record back

A record is a text of lines (`Row.lines_table`), and the line of a row tells the whole row: the
columns end at bars, the numbers in them stand between blanks however many digits they have, and no
line feed comes from a quoted character (`Row.parse?_line`). What a run has written can be read off
the rows that say so (`output_eq_append_rows`).
-/

namespace Brainfuck

namespace Row

/-! ## Lines -/

def titles : String :=
  "STEP | IP  | PTR | CELL | INSTR | ACTION"

def rule : String :=
  "-----+-----+-----+------+-------+------------------------------------------------"

def line (r : Row) : String :=
  column 4 r.step ++ " | " ++ column 3 r.ip ++ " | " ++ column 3 r.pointer ++ " | "
    ++ column 4 r.cell ++ " |  " ++ r.symbol.toString ++ "    | " ++ r.action

theorem header_eq : header = titles ++ "\n" ++ (rule ++ "\n") := by
  decide

theorem render_eq (r : Row) : r.render = r.line ++ "\n" :=
  rfl

theorem lines_table {rows : List Row} (h : ∀ r ∈ rows, '\n' ∉ r.line.toList) :
    Text.lines (table rows).toList =
      titles.toList :: rule.toList :: rows.map (fun r => r.line.toList) ++ [[]] := by
  have htable : (table rows).toList =
      (titles.toList :: rule.toList :: rows.map fun r => r.line.toList).flatMap (· ++ ['\n']) := by
    simp [table, header_eq, render_eq, String.toList_join, List.flatMap_map]
  rw [htable]
  apply Text.lines_flatMap
  simp only [List.forall_mem_cons, List.forall_mem_map]
  exact ⟨by simp [titles], by simp [rule], h⟩

theorem newline_not_mem_column (width n : Nat) : '\n' ∉ (column width n).toList := by
  simp [column, Text.newline_not_mem_decimal]

end Row

theorem Action.newline_not_mem_describe (a : Action) (before after : Tape) :
    '\n' ∉ (a.describe before after).toList := by
  unfold describe
  cases a with
  | moveLeft =>
    by_cases hp : before.pointer = 0
    · simp [hp]
    · simp [hp, Text.newline_not_mem_decimal]
  | _ => simp [Text.newline_not_mem_decimal, Text.newline_not_mem_quoted]

namespace Row

/-! ## Reading a line -/

def field? {α : Type} (read : List Char → Option α) (text : List Char) : Option (α × List Char) :=
  match text.dropWhile (· != '|') with
  | [] => none
  | _ :: rest => (read (Text.trim (text.takeWhile (· != '|')))).map (·, rest)

def symbol? : List Char → Option Char
  | [c] => some c
  | _ => none

/-- The row that a line tells. The action is all that stands behind the last bar and one space. -/
def parse? (line : List Char) : Option Row := do
  let (step, text) ← field? Text.digits? line
  let (ip, text) ← field? Text.digits? text
  let (pointer, text) ← field? Text.digits? text
  let (cell, text) ← field? Text.digits? text
  let (symbol, text) ← field? symbol? text
  return { step, ip, pointer, cell, symbol, action := String.ofList text.tail }

theorem toList_line (r : Row) :
    r.line.toList =
      (column 4 r.step).toList ++ ' ' :: '|' :: ' ' ::
      ((column 3 r.ip).toList ++ ' ' :: '|' :: ' ' ::
      ((column 3 r.pointer).toList ++ ' ' :: '|' :: ' ' ::
      ((column 4 r.cell).toList ++ ' ' :: '|' :: ' ' :: ' ' ::
      (r.symbol :: ' ' :: ' ' :: ' ' :: ' ' :: '|' :: ' ' :: r.action.toList)))) := by
  simp [line]

theorem field?_space {α : Type} (read : List Char → Option α) (text : List Char) :
    field? read (' ' :: text) = field? read text := by
  simp [field?, Text.trim_cons (show Text.isBlank ' ' = true by decide)]

theorem field?_append {α : Type} {read : List Char → Option α} {word : List Char} {a : α}
    (hread : read word = some a) (hword : ∀ c ∈ word, Text.isBlank c = false ∧ c ≠ '|') (n : Nat)
    (rest : List Char) : field? read (word ++ (List.replicate n ' ' ++ '|' :: rest)) = some (a, rest) := by
  have htrim : Text.trim (word ++ List.replicate n ' ') = word := by
    apply Text.trim_append (fun c hc => (hword c hc).1)
    intro c hc
    rw [List.eq_of_mem_replicate hc]
    decide
  have hbar : ∀ c ∈ word ++ List.replicate n ' ', (c != '|') = true := by
    intro c hc
    rcases List.mem_append.mp hc with hc | hc
    · simpa using (hword c hc).2
    · rw [List.eq_of_mem_replicate hc]
      decide
  rw [← List.append_assoc]
  unfold field?
  rw [List.dropWhile_append_of_pos hbar, List.takeWhile_append_of_pos hbar]
  simp [htrim, hread]

theorem field?_column (width n : Nat) (rest : List Char) :
    field? Text.digits? ((column width n).toList ++ ' ' :: '|' :: rest) = some (n, rest) := by
  have hword : ∀ c ∈ (Text.decimal n).toList, Text.isBlank c = false ∧ c ≠ '|' := by
    intro c hc
    have hdigit := Text.isDigit_of_mem_decimal hc
    refine ⟨Text.isBlank_of_isDigit hdigit, ?_⟩
    intro hbar
    rw [hbar] at hdigit
    exact absurd hdigit (by decide)
  -- the space before the bar is one more behind the number, which may have filled its column
  have h := field?_append (Text.digits?_decimal n) hword (width - (Text.decimal n).length + 1) rest
  rw [List.replicate_succ'] at h
  simpa [column] using h

theorem field?_symbol {c : Char} (h : Text.isBlank c = false ∧ c ≠ '|') (rest : List Char) :
    field? symbol? (c :: ' ' :: ' ' :: ' ' :: ' ' :: '|' :: rest) = some (c, rest) :=
  field?_append (show symbol? [c] = some c from rfl) (by simpa using h) 4 rest

structure Legible (r : Row) : Prop where
  symbol : Text.isBlank r.symbol = false ∧ r.symbol ≠ '|'
  action : '\n' ∉ r.action.toList

theorem Legible.newline_not_mem_line {r : Row} (h : r.Legible) : '\n' ∉ r.line.toList := by
  have hsymbol : '\n' ≠ r.symbol := by
    intro hs
    have hblank := h.symbol.1
    rw [← hs] at hblank
    exact absurd hblank (by decide)
  simp [line, newline_not_mem_column, h.action, hsymbol]

theorem Legible.parse?_line {r : Row} (h : r.Legible) : parse? r.line.toList = some r := by
  simp [toList_line, parse?, field?_space, field?_column, field?_symbol h.symbol]

end Row

theorem isBlank_of_isInstruction {c : Char} (h : isInstruction c = true) :
    Text.isBlank c = false ∧ c ≠ '|' := by
  obtain ⟨i, hi⟩ := Option.isSome_iff_exists.mp h
  rw [Instruction.ofChar?_eq_some_iff.mp hi]
  cases i <;> decide

theorem legible_of_mem_rowsFrom {code : Code} (hcode : ∀ c ∈ code.text, isInstruction c = true) {n k : Nat}
    {s : State} {r : Row} (h : r ∈ rowsFrom code n k s) : r.Legible := by
  induction n generalizing k s with
  | zero => cases h
  | succ n ih =>
    unfold rowsFrom at h
    split at h
    · cases h
    · rename_i c hc
      split at h
      · cases h
      · rename_i a ha
        rcases List.mem_cons.mp h with rfl | h
        · have hinst := hcode c (Array.mem_of_getElem? hc)
          exact ⟨isBlank_of_isInstruction hinst, a.newline_not_mem_describe _ _⟩
        · exact ih h

/-! ## What was written -/

def Action.written? : Action → Option Char
  | write c => some c
  | _ => none

/-- The character that a row says was written: it is told by the cell. -/
def Row.written? (r : Row) : Option Char :=
  if r.symbol = '.' ∧ "Output".toList <+: r.action.toList then some (cellChar r.cell) else none

theorem Action.output_prefix_describe (a : Action) (before after : Tape) :
    "Output".toList <+: (a.describe before after).toList ↔ ∃ c, a = .write c := by
  unfold describe
  cases a with
  | moveLeft => by_cases hp : before.pointer = 0 <;> simp [hp]
  | _ => simp

section
variable {code : Code} {s t : State} {c : Char} {a : Action} {n : Nat}

theorem output_perform (s : State) (a : Action) :
    (s.perform a).output.toList = s.output.toList ++ a.written?.toList := by
  cases a with
  | write c => simp [State.perform, Action.written?]
  | skip d => cases hm : s.mode <;> simp [State.perform, Action.written?, hm]
  | _ => simp [State.perform, Action.written?]

theorem action_write {w : Char} (ha : s.action code c = .ok (.write w)) :
    c = '.' ∧ w = cellChar s.tape.current := by
  cases hm : s.mode with
  | skipping o d => cases passes_of_action hm ha
  | running =>
    have hi : Instruction.ofChar? c = some .write := (instruction?_of_action hm ha).symm
    rw [action_running hm hi] at ha
    cases ha
    exact ⟨Instruction.ofChar?_eq_some_iff.mp hi, rfl⟩

theorem written?_ofStep (ha : s.action code c = .ok a) (k ip : Nat) (after : Tape) :
    (Row.ofStep k ip s.tape after c a).written? = a.written? := by
  unfold Row.written? Row.ofStep
  by_cases hw : ∃ w, a = .write w
  · obtain ⟨w, rfl⟩ := hw
    obtain ⟨hc, hcell⟩ := action_write ha
    rw [if_pos ⟨hc, (Action.output_prefix_describe ..).mpr ⟨w, rfl⟩⟩, hcell]
    rfl
  · -- a dot that is passed over gets here with a row that says so
    rw [if_neg fun h => hw ((Action.output_prefix_describe ..).mp h.2)]
    cases a with
    | write w => exact absurd ⟨w, rfl⟩ hw
    | _ => rfl

theorem output_eq_append_rows (h : Reaches code n s t) (k : Nat) :
    t.output.toList = s.output.toList ++ (rowsFrom code n k s).filterMap Row.written? := by
  induction h generalizing k with
  | refl s => simp [rowsFrom]
  | step hc ha _ ih =>
    rw [rowsFrom_step hc ha, ih (k + 1), output_perform, List.filterMap_cons, written?_ofStep ha]
    cases Action.written? _ <;> simp

theorem finish_eq_ok {o : String} (h : s.finish = .ok o) : o = s.output := by
  unfold State.finish at h
  split at h
  · cases h
  · split at h
    · cases h
    · cases h; rfl

end

/-! ## Executions -/

structure Row.Tells (r : Row) (text : List Char) (k : Nat) (s : State) : Prop where
  step : r.step = k
  ip : r.ip = s.ip
  pointer : r.pointer = s.tape.pointer
  cell : r.cell = s.tape.current
  symbol : text[s.ip]? = some r.symbol

namespace Engine

section
variable {e : Engine} {given : Controls} {sink : Option Sink} {program input : String} {j k : Nat} {run : Run}

theorem exists_row_of_progress (hj : j < k) (h : e.progress k given sink program input = .running run) :
    ∃ prev row, e.progress j given sink program input = .running prev ∧
      (e.rows program input k)[j]? = some row ∧ row.Tells program.toList j prev.state := by
  obtain ⟨next, hnext⟩ := progress_eq_running_of_le h hj
  obtain ⟨prev, hprev, hstep⟩ := progress_succ_eq_running hnext
  obtain ⟨c, a, hc, -, ha, -⟩ := Run.next_eq_running hstep
  have hrow := getElem?_rows (reaches_of_progress hprev).1 hc ha hj
  rw [code, getElem?_text_ofList] at hc
  exact ⟨prev, _, hprev, hrow, ⟨rfl, rfl, rfl, rfl, hc⟩⟩

theorem legible_of_mem_rows (hprogram : ∀ c ∈ program.toList, isInstruction c = true) {r : Row}
    (h : r ∈ e.rows program input k) : r.Legible := by
  apply legible_of_mem_rowsFrom _ h
  simpa [code, Code.ofList] using hprogram

theorem output_eq_rows {o : String} {ending : Ending} (h : e.EndsAfter given sink program input k ending)
    (ho : ending.result = .ok o) : o.toList = (e.rows program input k).filterMap Row.written? := by
  obtain ⟨run, hp, hn⟩ := h
  obtain ⟨result, sink'⟩ := ending
  cases ho
  rw [finish_eq_ok (Run.next_eq_ended_ok hn).2, output_eq_append_rows (reaches_of_progress hp).1 0]
  rfl

end

/-- **A record can be read.** When an execution ends, and with a limit it always does, its record is the
two lines of the header and one line for each step taken. Line `j` tells the step `j`, and what the
execution returns is told by the lines of the dots that wrote. -/
theorem record_readable (e : Engine) (given : Controls) (program input : String)
    (hprogram : ∀ c ∈ program.toList, isInstruction c = true)
    (hends : given.maxSteps.or e.maxSteps = none →
      ∃ ending, e.Ends given (some Sink.unbounded) program input ending) :
    ∃ k result record lines,
      e.EndsAfter given (some Sink.unbounded) program input k
        { result, sink := some (Sink.unbounded.write record) } ∧
      Text.lines record.toList = Row.titles.toList :: Row.rule.toList :: lines ++ [[]] ∧
      lines.length = k ∧
      (∀ j < k, ∃ run line row, e.progress j given (some Sink.unbounded) program input = .running run ∧
        lines[j]? = some line ∧ Row.parse? line = some row ∧ row.Tells program.toList j run.state) ∧
      ∀ o, result = .ok o → o.toList = lines.filterMap fun line => (Row.parse? line).bind Row.written? := by
  have hending : ∃ ending, e.Ends given (some Sink.unbounded) program input ending := by
    cases hN : given.maxSteps.or e.maxSteps with
    | none => exact hends hN
    | some N => exact exists_ends_of_limit hN
  obtain ⟨⟨result, sink⟩, h⟩ := hending
  obtain ⟨k, hk⟩ := h.exists_after (hasRoom_unbounded _)
  have hsink : sink = some (Sink.unbounded.write (e.record program input k)) := hk.sink_eq hasRoom_unbounded
  subst hsink
  have hlegible : ∀ r ∈ e.rows program input k, r.Legible := fun r => legible_of_mem_rows hprogram
  refine ⟨k, result, _, (e.rows program input k).map fun r => r.line.toList, hk, ?_, ?_, ?_, ?_⟩
  · exact Row.lines_table fun r hr => (hlegible r hr).newline_not_mem_line
  · obtain ⟨last, hlast, -⟩ := hk
    rw [List.length_map, length_rows (reaches_of_progress hlast).1]
  · intro j hj
    obtain ⟨last, hlast, -⟩ := hk
    obtain ⟨prev, row, hprev, hrow, htells⟩ := exists_row_of_progress hj hlast
    have hparse := (hlegible row (List.mem_of_getElem? hrow)).parse?_line
    refine ⟨prev, row.line.toList, row, hprev, ?_, hparse, htells⟩
    rw [List.getElem?_map, hrow]
    rfl
  · intro o ho
    rw [output_eq_rows hk ho, List.filterMap_map]
    apply List.filterMap_congr
    intro r hr
    simp [(hlegible r hr).parse?_line]

theorem record_readable_dot_passed_over :
    ∃ record lines, standard.Records Controls.none "[.]+." "" (.ok "\x01") record ∧
      Text.lines record.toList = Row.titles.toList :: Row.rule.toList :: lines ++ [[]] ∧
      lines.filterMap (fun line => (Row.parse? line).bind Row.written?) = ['\x01'] := by
  have hhalts : Halts (standard.code "[.]+.") (standard.initial "") 5 (.ok "\x01") :=
    .step rfl rfl (.step rfl rfl (.step rfl rfl (.step rfl rfl (.step rfl rfl (.finish rfl rfl)))))
  have hends := ends_of_halts hhalts (free_of_le Controls.neverCancels_none (nofun)) (hasRoom_unbounded _)
  have hprogram : ∀ c ∈ "[.]+.".toList, isInstruction c = true := by
    simp [isInstruction, Instruction.ofChar?]
  obtain ⟨k, result, record, lines, hk, hlines, -, -, hout⟩ :=
    record_readable standard Controls.none "[.]+." "" hprogram fun _ => ⟨_, hends⟩
  have hresult : result = .ok "\x01" := congrArg Ending.result (hk.ends.unique hends)
  subst hresult
  exact ⟨record, lines, hk.ends, hlines, (hout _ rfl).symm⟩

end Engine

end Brainfuck
