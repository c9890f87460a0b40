import Brainfuck.Proofs.Control

/-!
# Renumbering the places of a text

When characters are put into a text or taken out of it, the others come to stand at new
places. A machine keeps places: its own, those of the loops it has entered, and that of a
loop it passes over. If all of them are renumbered, it does the same as before at a
character that both texts have (`action_renumber`), as long as the partner of a bracket
stays its partner and the place behind is renumbered to the place behind
(`perform_renumber`).
-/

namespace Brainfuck

def Unmatched.renumber (ρ : Nat → Nat) (u : Unmatched) : Unmatched :=
  { u with place := ρ u.place }

def Mode.renumber (ρ : Nat → Nat) : Mode → Mode
  | .running => .running
  | .skipping origin depth => .skipping (ρ origin) depth

def State.renumber (ρ : Nat → Nat) (s : State) : State :=
  { s with ip := ρ s.ip, loops := s.loops.map ρ, mode := s.mode.renumber ρ }

def State.goto (s : State) (k : Nat) : State :=
  { s with ip := k }

def Action.renumber (ρ : Nat → Nat) : Action → Action
  | .jumpForward close => .jumpForward (ρ close)
  | .jumpBack start => .jumpBack (ρ start)
  | .endSkip origin => .endSkip (ρ origin)
  | a => a

def renumberOutcome (ρ : Nat → Nat) : Except Unmatched Action → Except Unmatched Action
  | .ok a => .ok (a.renumber ρ)
  | .error u => .error (u.renumber ρ)

/-- The place behind which the machine goes on after an action. -/
def Action.leaves (s : State) : Action → Nat
  | .jumpForward close => close
  | .jumpBack start => start
  | _ => s.ip

section
variable {ρ : Nat → Nat} {s : State} {c : Char} {a : Action}

theorem finish_renumber (ρ : Nat → Nat) (s : State) :
    (s.renumber ρ).finish = s.finish.mapError (·.renumber ρ) := by
  unfold State.finish State.renumber
  cases s.mode with
  | skipping o d => rfl
  | running => cases s.loops <;> rfl

theorem skipAction_renumber (ρ : Nat → Nat) (o d : Nat) (c : Char) :
    State.skipAction (ρ o) d c = (State.skipAction o d c).renumber ρ := by
  unfold State.skipAction
  split
  · rfl
  · by_cases hd : d = 1
    · rw [if_pos hd, if_pos hd]; rfl
    · rw [if_neg hd, if_neg hd]; rfl
  · rfl

theorem closeAction_renumber (ρ : Nat → Nat) (s : State) :
    (s.renumber ρ).closeAction = renumberOutcome ρ s.closeAction := by
  unfold State.closeAction State.renumber
  cases s.loops with
  | nil => rfl
  | cons start rest => by_cases hcell : s.tape.current = 0 <;> simp [hcell] <;> rfl

theorem openAction_renumber {strategy : LoopStrategy} {text text' : List Char}
    (hp : (Brackets.ofList text').partner? (ρ s.ip) = ((Brackets.ofList text).partner? s.ip).map ρ) :
    (s.renumber ρ).openAction (Code.ofList strategy text') =
      renumberOutcome ρ (s.openAction (Code.ofList strategy text)) := by
  unfold State.openAction State.renumber
  by_cases hcell : s.tape.current = 0
  · cases strategy with
    | scan => simp [hcell, Code.ofList]; rfl
    | jumpTable =>
      simp only [hcell, Code.ofList, hp]
      cases (Brackets.ofList text).partner? s.ip <;> rfl
  · simp [hcell]; rfl

theorem action_renumber {strategy : LoopStrategy} {text text' : List Char}
    (hp : c = '[' → (Brackets.ofList text').partner? (ρ s.ip) = ((Brackets.ofList text).partner? s.ip).map ρ) :
    (s.renumber ρ).action (Code.ofList strategy text') c =
      renumberOutcome ρ (s.action (Code.ofList strategy text) c) := by
  cases hm : s.mode with
  | skipping o d =>
    have hm' : (s.renumber ρ).mode = .skipping (ρ o) d := by simp [State.renumber, hm, Mode.renumber]
    rw [action_skipping hm, action_skipping hm', skipAction_renumber]
    rfl
  | running =>
    have hm' : (s.renumber ρ).mode = .running := by simp [State.renumber, hm, Mode.renumber]
    simp only [State.action, hm, hm']
    cases hi : Instruction.ofChar? c with
    | none => rfl
    | some i =>
      cases i with
      | openLoop => exact openAction_renumber (hp (Instruction.ofChar?_eq_some_iff.mp hi))
      | closeLoop => exact closeAction_renumber ρ s
      | read =>
        simp only [State.instructionAction, State.renumber]
        cases s.input <;> rfl
      | _ => rfl

theorem ip_perform (s : State) (a : Action) : (s.perform a).ip = a.leaves s + 1 := by
  cases a with
  | skip d => cases hm : s.mode <;> simp [State.perform, Action.leaves, hm]
  | _ => rfl

theorem perform_renumber_eq (ρ : Nat → Nat) (s : State) (a : Action) :
    (s.renumber ρ).perform (a.renumber ρ) = ((s.perform a).renumber ρ).goto (ρ (a.leaves s) + 1) := by
  cases a with
  | skip d =>
    cases hm : s.mode <;>
      simp [State.perform, State.renumber, State.goto, Action.renumber, Mode.renumber, Action.leaves, hm]
  | _ => simp [State.perform, State.renumber, State.goto, Action.renumber, Mode.renumber, Action.leaves]

theorem perform_renumber (h : ρ (a.leaves s + 1) = ρ (a.leaves s) + 1) :
    (s.perform a).renumber ρ = (s.renumber ρ).perform (a.renumber ρ) := by
  rw [perform_renumber_eq, ← h, ← ip_perform]
  rfl

end

/-! ## Brackets -/

section
variable {ρ : Nat → Nat} {text text' : List Char}

/-- If what waits at a place waits, renumbered, at the renumbered place, then the partners of the
opening brackets are the renumbered ones. -/
theorem partner?_renumber (hopen : ∀ k, openAt text' (ρ k) = (openAt text k).map ρ)
    (hget : ∀ (b : Bracket) k, text[k]? = some b.symbol → text'[ρ k]? = some b.symbol)
    (hend : ρ text.length = text'.length) {k : Nat} (h : text[k]? = some '[') :
    (Brackets.ofList text').partner? (ρ k) = ((Brackets.ofList text).partner? k).map ρ := by
  cases hp : (Brackets.ofList text).partner? k with
  | some j =>
    have hpair := pair_of_partner?_open h hp
    have hpair' : Pair text' (ρ k) (ρ j) := by
      refine ⟨hget .opening k h, hget .closing j hpair.closes, ?_⟩
      rw [hopen, hopen, hpair.top, List.map_cons]
    exact (partner?_of_pair hpair').1
  | none =>
    -- it still waits at the end, and so it does in the other text
    have hmem := (partner?_open_eq_none_iff h).mp hp
    rw [Option.map_none, partner?_open_eq_none_iff (hget .opening k h), ← hend, hopen]
    exact List.mem_map_of_mem hmem

end

end Brainfuck
