import Brainfuck.Proofs.Matching

/-!
# What a step does to the flow of control

`Obeys` lists all that a character does when it is obeyed: go on to the next one, or enter,
leave out, repeat or exit a loop. `Fails` names the two brackets on which it fails, and
`Passes` lists what it does when it is passed over. Nothing is missing from these lists
(`running_spec`, `skipping_spec`); what is proved about the place, the loops and the mode
of a machine is proved from them.
-/

namespace Brainfuck

/-- Actions that have nothing to do with loops, with what they carry taken from the state. -/
def State.Plain (s : State) : Action → Prop
  | .moveRight | .moveLeft | .increment | .decrement | .ignore => True
  | .write c => c = cellChar s.tape.current
  | .read c => s.input.head? = some c
  | .readNothing => s.input = []
  | _ => False

theorem perform_plain {s : State} {a : Action} (h : s.Plain a) :
    (s.perform a).ip = s.ip + 1 ∧ (s.perform a).loops = s.loops ∧ (s.perform a).mode = s.mode := by
  cases a <;> first | exact ⟨rfl, rfl, rfl⟩ | cases h

inductive Obeys (strategy : LoopStrategy) (text : List Char) (s : State) : Char → Action → Prop
  | plain {c : Char} {a : Action} (ho : c ≠ '[') (hc : c ≠ ']') (ha : s.Plain a) :
      Obeys strategy text s c a
  | enter (hcell : s.tape.current ≠ 0) : Obeys strategy text s '[' .enterLoop
  | jump {close : Nat} (hcell : s.tape.current = 0) (hs : strategy = .jumpTable)
      (hp : (Brackets.ofList text).partner? s.ip = some close) :
      Obeys strategy text s '[' (.jumpForward close)
  | startSkip (hcell : s.tape.current = 0) (hs : strategy = .scan) :
      Obeys strategy text s '[' .startSkip
  | back {start : Nat} {rest : List Nat} (hcell : s.tape.current ≠ 0) (hl : s.loops = start :: rest) :
      Obeys strategy text s ']' (.jumpBack start)
  | exit {start : Nat} {rest : List Nat} (hcell : s.tape.current = 0) (hl : s.loops = start :: rest) :
      Obeys strategy text s ']' .exitLoop

inductive Fails (strategy : LoopStrategy) (text : List Char) (s : State) : Char → Unmatched → Prop
  | close (hl : s.loops = []) : Fails strategy text s ']' { place := s.ip, bracket := .closing }
  | jump (hcell : s.tape.current = 0) (hs : strategy = .jumpTable)
      (hp : (Brackets.ofList text).partner? s.ip = none) :
      Fails strategy text s '[' { place := s.ip, bracket := .opening }

inductive Passes (o d : Nat) : Char → Action → Prop
  | opening : Passes o d '[' (.skip (d + 1))
  | closing (hd : d ≠ 1) : Passes o d ']' (.skip (d - 1))
  | plain {c : Char} (ho : c ≠ '[') (hc : c ≠ ']') : Passes o d c (.skip d)
  | last (hd : d = 1) : Passes o d ']' (.endSkip o)

def Action.instruction? : Action → Option Instruction
  | moveRight => some .moveRight
  | moveLeft => some .moveLeft
  | increment => some .increment
  | decrement => some .decrement
  | write _ => some .write
  | read _ | readNothing => some .read
  | enterLoop | jumpForward _ | startSkip => some .openLoop
  | jumpBack _ | exitLoop => some .closeLoop
  | ignore | skip _ | endSkip _ => none

def Meets (strategy : LoopStrategy) (text : List Char) (s : State) (c : Char) :
    Except Unmatched Action → Prop
  | .ok a => Obeys strategy text s c a
  | .error u => Fails strategy text s c u

section
variable {strategy : LoopStrategy} {text : List Char} {s : State} {c : Char} {a : Action}

theorem getElem?_text_ofList (strategy : LoopStrategy) (text : List Char) (i : Nat) :
    (Code.ofList strategy text).text[i]? = text[i]? := by
  simp [Code.ofList]

theorem ne_bracket_of_ofChar?_eq_none (h : Instruction.ofChar? c = none) : c ≠ '[' ∧ c ≠ ']' := by
  constructor <;> (rintro rfl; cases h)

theorem skipping_spec (o d : Nat) (c : Char) : Passes o d c (State.skipAction o d c) := by
  cases hi : Instruction.ofChar? c with
  | none =>
    obtain ⟨ho, hc⟩ := ne_bracket_of_ofChar?_eq_none hi
    simp only [State.skipAction, hi]
    exact .plain ho hc
  | some i =>
    have he := Instruction.ofChar?_eq_some_iff.mp hi
    subst he
    cases i with
    | openLoop => exact .opening
    | closeLoop =>
      simp only [State.skipAction, hi]
      by_cases hd : d = 1
      · rw [if_pos hd]; exact .last hd
      · rw [if_neg hd]; exact .closing hd
    | _ => exact .plain (by decide) (by decide)

/-- A loop that goes on waiting is passed through, and its depth is counted. -/
theorem skipAction_in_loop {o k : Nat} (hc : text[k]? = some c) (ho : o ∈ openAt text k)
    (ho' : o ∈ openAt text (k + 1)) :
    State.skipAction o (depthIn text o k) c = .skip (depthIn text o (k + 1)) := by
  have hs := skipping_spec o (depthIn text o k) c
  generalize State.skipAction o (depthIn text o k) c = a at hs ⊢
  cases hs with
  | opening => rw [depthIn_succ_open hc ho]
  | closing => rw [depthIn_succ_close hc]
  | plain hopen hclose => rw [depthIn_succ_plain hc hopen hclose]
  | last hd =>
    -- the loop at `o` would have its end here
    have hpos := depthIn_pos ho'
    rw [depthIn_succ_close hc, hd] at hpos
    exact absurd hpos (Nat.lt_irrefl 0)

theorem openAction_spec (strategy : LoopStrategy) (text : List Char) (s : State) :
    Meets strategy text s '[' (s.openAction (Code.ofList strategy text)) := by
  unfold State.openAction
  by_cases hcell : s.tape.current ≠ 0
  · rw [if_pos hcell]; exact Obeys.enter hcell
  · rw [if_neg hcell]
    have hzero := not_not.mp hcell
    cases strategy with
    | scan => exact Obeys.startSkip hzero rfl
    | jumpTable =>
      simp only [Code.ofList]
      cases hp : (Brackets.ofList text).partner? s.ip with
      | some close => exact Obeys.jump hzero rfl hp
      | none => exact Fails.jump hzero rfl hp

theorem closeAction_spec (strategy : LoopStrategy) (text : List Char) (s : State) :
    Meets strategy text s ']' s.closeAction := by
  unfold State.closeAction
  cases hl : s.loops with
  | nil => exact Fails.close hl
  | cons start rest =>
    by_cases hcell : s.tape.current ≠ 0
    · simp only [if_pos hcell]; exact Obeys.back hcell hl
    · simp only [if_neg hcell]; exact Obeys.exit (not_not.mp hcell) hl

theorem running_spec (strategy : LoopStrategy) (text : List Char) (c : Char) (hm : s.mode = .running) :
    Meets strategy text s c (s.action (Code.ofList strategy text) c) := by
  simp only [State.action, hm]
  cases hi : Instruction.ofChar? c with
  | none =>
    obtain ⟨ho, hc⟩ := ne_bracket_of_ofChar?_eq_none hi
    exact Obeys.plain ho hc trivial
  | some i =>
    have he := Instruction.ofChar?_eq_some_iff.mp hi
    subst he
    cases i with
    | openLoop => exact openAction_spec ..
    | closeLoop => exact closeAction_spec ..
    | read =>
      simp only [State.instructionAction]
      cases hin : s.input with
      | nil => exact Obeys.plain (by decide) (by decide) hin
      | cons ch rest => exact Obeys.plain (by decide) (by decide) (congrArg List.head? hin)
    | write => exact Obeys.plain (by decide) (by decide) rfl
    | _ => exact Obeys.plain (by decide) (by decide) trivial

theorem action_running {code : Code} {i : Instruction} (hm : s.mode = .running)
    (hi : Instruction.ofChar? c = some i) : s.action code c = s.instructionAction code i := by
  simp only [State.action, hm, hi]

theorem action_skipping {code : Code} {o d : Nat} (hm : s.mode = .skipping o d) :
    s.action code c = .ok (State.skipAction o d c) := by
  simp only [State.action, hm]

theorem instruction?_of_action {code : Code} (hm : s.mode = .running) (ha : s.action code c = .ok a) :
    a.instruction? = Instruction.ofChar? c := by
  simp only [State.action, hm] at ha
  cases hi : Instruction.ofChar? c with
  | none =>
    rw [hi] at ha
    cases ha; rfl
  | some i =>
    simp only [hi] at ha
    cases i with
    | openLoop =>
      simp only [State.instructionAction, State.openAction] at ha
      by_cases hcell : s.tape.current ≠ 0
      · rw [if_pos hcell] at ha
        cases ha; rfl
      · rw [if_neg hcell] at ha
        split at ha
        · cases ha; rfl
        · split at ha <;> cases ha
          rfl
    | closeLoop =>
      simp only [State.instructionAction, State.closeAction] at ha
      split at ha
      · cases ha
      · by_cases hcell : s.tape.current ≠ 0
        · rw [if_pos hcell] at ha
          cases ha; rfl
        · rw [if_neg hcell] at ha
          cases ha; rfl
    | read =>
      simp only [State.instructionAction] at ha
      split at ha <;> cases ha <;> rfl
    | _ => cases ha; rfl

theorem obeys_of_action (hm : s.mode = .running)
    (h : s.action (Code.ofList strategy text) c = .ok a) : Obeys strategy text s c a := by
  have := running_spec strategy text c hm
  rw [h] at this; exact this

theorem passes_of_action {code : Code} {o d : Nat} (hm : s.mode = .skipping o d)
    (h : s.action code c = .ok a) : Passes o d c a := by
  rw [action_skipping hm] at h
  cases h
  exact skipping_spec o d c

theorem fails_of_action {u : Unmatched} (h : s.action (Code.ofList strategy text) c = .error u) :
    s.mode = .running ∧ Fails strategy text s c u := by
  cases hm : s.mode with
  | skipping o d => rw [action_skipping hm] at h; cases h
  | running =>
    have := running_spec strategy text c hm
    rw [h] at this; exact ⟨rfl, this⟩

end

end Brainfuck
