import Brainfuck.Proofs.Invariant

/-!
# Machines in lockstep

Two machines on the same text do the same for as long as they see the same cells around
their pointers. Neither the width of the cells nor the number that was set aside at the
start is seen directly. The number never shows (`Engine.tapeCells_unobservable`); the width
shows only when a value is stored that the narrower cells cannot hold
(`Engine.widths_agree`).
-/

namespace Brainfuck

/-! ## Narrow and wide cells -/

namespace CellWidth
variable {narrow broad : CellWidth} {v : Nat}

theorem modulus_dvd (h : narrow.bits ≤ broad.bits) : narrow.modulus ∣ broad.modulus :=
  Nat.pow_dvd_pow 2 h

theorem reduce_reduce_broad (h : narrow.bits ≤ broad.bits) (v : Nat) :
    narrow.reduce (broad.reduce v) = narrow.reduce v :=
  Nat.mod_mod_of_dvd v (modulus_dvd h)

theorem reduce_eq_of_le (h : narrow.bits ≤ broad.bits) (hv : broad.reduce v ≤ narrow.mask) :
    narrow.reduce v = broad.reduce v := by
  rw [← reduce_reduce_broad h v, reduce_of_le_mask hv]

theorem succ_eq_of_le (h : narrow.bits ≤ broad.bits) (hv : broad.succ v ≤ narrow.mask) :
    narrow.succ v = broad.succ v :=
  reduce_eq_of_le h hv

theorem pred_eq_of_le (h : narrow.bits ≤ broad.bits) (hv : broad.pred v ≤ narrow.mask) :
    narrow.pred v = broad.pred v := by
  -- the largest values differ by a multiple of the smaller modulus
  obtain ⟨k, hk⟩ := modulus_dvd h
  have hpos := broad.modulus_pos
  have hmask : broad.mask = narrow.mask + narrow.modulus * (k - 1) := by
    cases k with
    | zero => rw [Nat.mul_zero] at hk; omega
    | succ k =>
      have := narrow.modulus_pos
      rw [Nat.mul_succ] at hk
      simp only [mask, Nat.add_sub_cancel]
      omega
  have hred : narrow.reduce (v + broad.mask) = narrow.reduce (v + narrow.mask) := by
    unfold reduce
    rw [hmask, ← Nat.add_assoc, Nat.add_mul_mod_self_left]
  unfold pred at hv ⊢
  rw [← hred]
  exact reduce_eq_of_le h hv

end CellWidth

/-! ## Tapes with the same cells -/

structure Tape.Alike (narrow : CellWidth) (t t' : Tape) : Prop where
  width : t.width = narrow
  bits_le : narrow.bits ≤ t'.width.bits
  left : t.left = t'.left
  current : t.current = t'.current
  right : t.right = t'.right

def Action.onTape (t : Tape) : Action → Tape
  | .moveRight => t.moveRight
  | .moveLeft => t.moveLeft
  | .increment => t.increment
  | .decrement => t.decrement
  | .read c => t.set c.toNat
  | _ => t

namespace Tape.Alike
variable {narrow : CellWidth} {t t' : Tape}

theorem pointer (h : t.Alike narrow t') : t.pointer = t'.pointer := by
  simp [Tape.pointer, h.left]

theorem store (h : t.Alike narrow t') {v v' : Nat} (hv : v = v') :
    ({ t with current := v } : Tape).Alike narrow { t' with current := v' } :=
  ⟨h.width, h.bits_le, h.left, hv, h.right⟩

theorem moveRight (h : t.Alike narrow t') : t.moveRight.Alike narrow t'.moveRight := by
  unfold Tape.moveRight
  rw [h.right]
  cases t'.right with
  | nil => exact ⟨h.width, h.bits_le, by rw [h.left, h.current], rfl, rfl⟩
  | cons v right => exact ⟨h.width, h.bits_le, by rw [h.left, h.current], rfl, rfl⟩

theorem moveLeft (h : t.Alike narrow t') : t.moveLeft.Alike narrow t'.moveLeft := by
  unfold Tape.moveLeft
  rw [h.left]
  cases t'.left with
  | nil => exact ⟨h.width, h.bits_le, rfl, rfl, by rw [h.right, h.current]⟩
  | cons v left => exact ⟨h.width, h.bits_le, rfl, rfl, by rw [h.right, h.current]⟩

theorem onTape (h : t.Alike narrow t') {a : Action} (hfit : (a.onTape t').current ≤ narrow.mask) :
    (a.onTape t).Alike narrow (a.onTape t') := by
  cases a with
  | moveRight => exact h.moveRight
  | moveLeft => exact h.moveLeft
  | increment =>
    apply h.store
    simp only [Action.onTape, Tape.increment] at hfit
    rw [h.width, h.current]
    exact CellWidth.succ_eq_of_le h.bits_le hfit
  | decrement =>
    apply h.store
    simp only [Action.onTape, Tape.decrement] at hfit
    rw [h.width, h.current]
    exact CellWidth.pred_eq_of_le h.bits_le hfit
  | read c =>
    apply h.store
    simp only [Action.onTape, Tape.set] at hfit
    rw [h.width]
    exact CellWidth.reduce_eq_of_le h.bits_le hfit
  | _ => exact h

theorem describe {u u' : Tape} (h : t.Alike narrow t') (hu : u.Alike narrow u') (a : Action) :
    a.describe t u = a.describe t' u' := by
  unfold Action.describe
  rw [h.pointer, h.current, hu.pointer, hu.current]

theorem ofStep {u u' : Tape} (h : t.Alike narrow t') (hu : u.Alike narrow u') (step ip : Nat) (c : Char)
    (a : Action) : Row.ofStep step ip t u c a = Row.ofStep step ip t' u' c a := by
  simp [Row.ofStep, h.pointer, h.current, h.describe hu]

end Tape.Alike

/-! ## Steps on another tape -/

def State.withTape (s : State) (t : Tape) : State :=
  { s with tape := t }

section
variable {s : State} {t : Tape}

theorem tape_perform (s : State) (a : Action) : (s.perform a).tape = a.onTape s.tape := by
  cases a with
  | skip d => cases hm : s.mode <;> simp [State.perform, Action.onTape, hm]
  | _ => rfl

theorem perform_withTape (s : State) (t : Tape) (a : Action) :
    (s.withTape t).perform a = (s.perform a).withTape (a.onTape t) := by
  cases a with
  | skip d => cases hm : s.mode <;> simp [State.perform, State.withTape, Action.onTape, hm]
  | _ => rfl

theorem instructionAction_withTape (h : t.current = s.tape.current) (code : Code) (i : Instruction) :
    (s.withTape t).instructionAction code i = s.instructionAction code i := by
  cases i <;>
    simp [State.instructionAction, State.openAction, State.closeAction, State.withTape, h]

theorem action_withTape (h : t.current = s.tape.current) (code : Code) (c : Char) :
    (s.withTape t).action code c = s.action code c := by
  cases hm : s.mode with
  | skipping o d =>
    have hm' : (s.withTape t).mode = .skipping o d := hm
    rw [action_skipping hm, action_skipping hm']
  | running =>
    have hm' : (s.withTape t).mode = .running := hm
    simp only [State.action, hm, hm']
    cases Instruction.ofChar? c with
    | none => rfl
    | some i => exact instructionAction_withTape h code i

end

def Run.withTape (r : Run) (t : Tape) : Run :=
  { r with state := r.state.withTape t }

/-- The next step of the run leads to the state, whether or not its row can be written. -/
def Run.Takes (code : Code) (controls : Controls) (r : Run) (s : State) : Prop :=
  ∃ c a, code.text[r.state.ip]? = some c ∧ r.refusal? controls = none ∧
    r.state.action code c = .ok a ∧ s = r.state.perform a

def Progress.sink : Progress → Option Sink
  | .running run => run.sink
  | .ended e => e.sink

inductive InStep (narrow : CellWidth) : Progress → Progress → Prop
  | running {r : Run} {t : Tape} (h : t.Alike narrow r.state.tape) :
      InStep narrow (.running (r.withTape t)) (.running r)
  | ended (e : Ending) : InStep narrow (.ended e) (.ended e)

section
variable {narrow : CellWidth} {code : Code} {controls : Controls} {r : Run} {t : Tape} {p p' : Progress}

theorem InStep.ending?_eq (h : InStep narrow p p') : p.ending? = p'.ending? := by
  cases h <;> rfl

theorem InStep.sink_eq (h : InStep narrow p p') : p.sink = p'.sink := by
  cases h <;> rfl

theorem inStep_complete {a : Action} (h : t.Alike narrow r.state.tape)
    (ha : (a.onTape t).Alike narrow (a.onTape r.state.tape)) (c : Char) :
    InStep narrow ((r.withTape t).complete c a) (r.complete c a) := by
  obtain ⟨steps, state, sink⟩ := r
  have hafter : (a.onTape t).Alike narrow (state.perform a).tape := by
    rw [tape_perform]
    exact ha
  have hrow : Row.ofStep steps state.ip t (a.onTape t) c a =
      Row.ofStep steps state.ip state.tape (state.perform a).tape c a :=
    h.ofStep hafter ..
  cases sink with
  | none =>
    simp only [Run.complete, Run.withTape, perform_withTape]
    exact .running (r := { steps := steps + 1, state := state.perform a, sink := none }) hafter
  | some sink =>
    simp only [Run.complete, Run.withTape, perform_withTape]
    simp only [State.withTape, hrow]
    split
    · exact .ended _
    · exact .running (r := { steps := steps + 1, state := state.perform a, sink := some _ }) hafter

/-- **One step.** Runs in lockstep stay so, unless the step stores what narrow cells cannot hold. -/
theorem inStep_next (h : t.Alike narrow r.state.tape)
    (hfit : ∀ s, r.Takes code controls s → s.tape.current ≤ narrow.mask) :
    InStep narrow ((r.withTape t).next code controls) (r.next code controls) := by
  have hip : code.text[(r.withTape t).state.ip]? = code.text[r.state.ip]? := rfl
  have hrefusal : (r.withTape t).refusal? controls = r.refusal? controls := rfl
  cases hc : code.text[r.state.ip]? with
  | none =>
    rw [next_end hc, next_end (hip.trans hc)]
    exact .ended _
  | some c =>
    have haction : (r.withTape t).state.action code c = r.state.action code c :=
      action_withTape h.current code c
    cases href : r.refusal? controls with
    | some cause =>
      rw [next_refused hc href, next_refused (hip.trans hc) (hrefusal.trans href)]
      exact .ended _
    | none =>
      cases ha : r.state.action code c with
      | error u =>
        rw [next_fail hc href ha, next_fail (hip.trans hc) (hrefusal.trans href) (haction.trans ha)]
        exact .ended _
      | ok a =>
        have hcell := hfit _ ⟨c, a, hc, href, ha, rfl⟩
        rw [tape_perform] at hcell
        rw [next_complete hc href ha,
          next_complete (hip.trans hc) (hrefusal.trans href) (haction.trans ha)]
        exact inStep_complete h (h.onTape hcell) c

theorem inStep_start {s : State} (h : t.Alike narrow s.tape) (sink : Option Sink) :
    InStep narrow (Progress.start (s.withTape t) sink) (Progress.start s sink) := by
  cases sink with
  | none => exact .running (r := { steps := 0, state := s, sink := none }) h
  | some sink =>
    simp only [Progress.start]
    split
    · exact .ended _
    · exact .running (r := { steps := 0, state := s, sink := some (sink.write Row.header) }) h

end

/-! ## Executions -/

namespace Engine

def withTape (e : Engine) (cells : Nat) (width : CellWidth) : Engine :=
  { e with tapeCells := cells, cellWidth := width }

/-- The execution has the machine in this state at some time: before a step, or after one whose row
is still to be written. -/
def Visits (e : Engine) (given : Controls) (sink : Option Sink) (program input : String) (s : State) : Prop :=
  ∃ n run, e.progress n given sink program input = .running run ∧
    (s = run.state ∨ run.Takes (e.code program) (e.controls given) s)

section
variable {e : Engine} {given : Controls} {sink : Option Sink} {program input : String}

theorem Visits.reaches {s : State} (h : e.Visits given sink program input s) :
    ∃ n, Reaches (e.code program) n (e.initial input) s := by
  obtain ⟨n, run, hp, rfl | ⟨c, a, hc, -, ha, rfl⟩⟩ := h
  · exact ⟨n, (reaches_of_progress hp).1⟩
  · exact ⟨n + 1, (reaches_of_progress hp).1.trans (.single hc ha)⟩

theorem Visits.fits {s : State} (h : e.Visits given sink program input s) : s.tape.Fits e.cellWidth := by
  obtain ⟨n, hr⟩ := h.reaches
  exact fits_of_reaches hr

/-- **Whole executions.** By induction on the number of steps, on whatever tapes they start. -/
theorem progress_inStep {cells cells' : Nat} {narrow broad : CellWidth} (hw : narrow.bits ≤ broad.bits)
    (hfit : ∀ s, (e.withTape cells' broad).Visits given sink program input s → s.tape.current ≤ narrow.mask)
    (n : Nat) :
    InStep narrow ((e.withTape cells narrow).progress n given sink program input)
      ((e.withTape cells' broad).progress n given sink program input) := by
  induction n with
  | zero =>
    have hnew : (Tape.new cells narrow).Alike narrow (Tape.new cells' broad) := ⟨rfl, hw, rfl, rfl, rfl⟩
    exact inStep_start (s := (e.withTape cells' broad).initial input) hnew sink
  | succ n ih =>
    generalize hp : (e.withTape cells narrow).progress n given sink program input = p at ih
    generalize hp' : (e.withTape cells' broad).progress n given sink program input = p' at ih
    cases ih with
    | ended ending =>
      rw [progress_of_ended hp, progress_of_ended hp']
      exact .ended ending
    | @running r t h =>
      rw [progress_succ hp, progress_succ hp']
      apply inStep_next h
      intro s hs
      exact hfit s ⟨n, r, hp', Or.inr hs⟩

end

/-- **The number of cells at the start does not show.** After any number of steps the executions have
written the same record, and when they end they end alike. -/
theorem tapeCells_unobservable (e : Engine) (cells cells' : Nat) (given : Controls) (sink : Option Sink)
    (program input : String) (n : Nat) :
    (e.withTape cells e.cellWidth).execute n given sink program input =
        (e.withTape cells' e.cellWidth).execute n given sink program input ∧
      ((e.withTape cells e.cellWidth).progress n given sink program input).sink =
        ((e.withTape cells' e.cellWidth).progress n given sink program input).sink := by
  have h : InStep e.cellWidth ((e.withTape cells e.cellWidth).progress n given sink program input)
      ((e.withTape cells' e.cellWidth).progress n given sink program input) := by
    apply progress_inStep (Nat.le_refl _)
    intro s hs
    exact hs.fits.current
  exact ⟨h.ending?_eq, h.sink_eq⟩

/-- **Narrow cells do as well as wide ones** when every value that the cells hold in the execution with wide
cells is one that narrow cells can hold. -/
theorem widths_agree (e : Engine) {narrow broad : CellWidth} (hw : narrow.bits < broad.bits) (given : Controls)
    (sink : Option Sink) (program input : String)
    (hfit : ∀ s, (e.withTape e.tapeCells broad).Visits given sink program input s →
      ∀ v ∈ s.tape.toList, v ≤ narrow.mask) (n : Nat) :
    (e.withTape e.tapeCells narrow).execute n given sink program input =
        (e.withTape e.tapeCells broad).execute n given sink program input ∧
      ((e.withTape e.tapeCells narrow).progress n given sink program input).sink =
        ((e.withTape e.tapeCells broad).progress n given sink program input).sink := by
  have h : InStep narrow ((e.withTape e.tapeCells narrow).progress n given sink program input)
      ((e.withTape e.tapeCells broad).progress n given sink program input) := by
    apply progress_inStep (Nat.le_of_lt hw)
    intro s hs
    exact hfit s hs _ (List.mem_of_getElem? s.tape.getElem?_pointer_toList)
  exact ⟨h.ending?_eq, h.sink_eq⟩

theorem widths_agree_accent :
    let e := standard.withTape 2 .byte
    let sink := some Sink.unbounded
    (∀ s, (e.withTape 2 .word).Visits Controls.none sink ",+" "é" s →
      ∀ v ∈ s.tape.toList, v ≤ CellWidth.byte.mask) ∧
    (e.withTape 2 .byte).execute 3 Controls.none sink ",+" "é" =
      (e.withTape 2 .word).execute 3 Controls.none sink ",+" "é" := by
  intro e sink
  have hfit : ∀ s, (e.withTape 2 .word).Visits Controls.none sink ",+" "é" s →
      ∀ v ∈ s.tape.toList, v ≤ CellWidth.byte.mask := by
    intro s hs
    obtain ⟨n, hr⟩ := hs.reaches
    cases hr with
    | refl => decide
    | step hc ha hr =>
      cases hc
      cases ha
      cases hr with
      | refl => decide
      | step hc ha hr =>
        cases hc
        cases ha
        cases hr with
        | refl => decide
        | step hc => cases hc
  exact ⟨hfit, (widths_agree e (by decide) Controls.none sink ",+" "é" hfit 3).1⟩

end Engine

end Brainfuck
