import Brainfuck.Proofs.Lockstep
import Brainfuck.Proofs.Passing
import Brainfuck.Proofs.Structured.BigStep

/-!
# Texts that may be put in

Two commands that undo each other do nothing, wherever they are put into a text, and a loop at the
start of a text or right behind another loop is never entered. So a text with such an `Idle` part
comes to the same as the text without it, and only the places behind are shifted.

The machine with the longer text follows the other (`Idle.simulation`). Where the other comes to the
place at which the part was put in, it passes through that part first (`Idle.arrives`). The
tapes may differ then, because the part can make the tape grow; but they show the same line.
-/

namespace Brainfuck

/-- What does nothing when it is put in right behind `front`. -/
inductive Idle (front : List Char) : List Char → Prop
  | upDown : Idle front ['+', '-']
  | downUp : Idle front ['-', '+']
  | rightLeft : Idle front ['>', '<']
  | leftRight : Idle front ['<', '>']
  | deadLoop {body : List Char} (hbody : Balanced body) (hfront : front = [] ∨ front.getLast? = some ']') :
      Idle front ('[' :: (body ++ [']']))

def shifted (start n k : Nat) : Nat :=
  if k < start then k else k + n

/-- Where a machine goes on that went on at `k` before `n` characters were put in: at `start` it
meets these characters first. -/
def landed (start n k : Nat) : Nat :=
  if k ≤ start then k else k + n

section
variable {start n k : Nat}

theorem shifted_add_one (start n k : Nat) : shifted start n k + 1 = landed start n (k + 1) := by
  unfold shifted landed
  by_cases h : k < start
  · rw [if_pos h, if_pos (by omega)]
  · rw [if_neg h, if_neg (by omega)]; omega

theorem landed_self (start n : Nat) : landed start n start = start := by simp [landed]

theorem landed_of_ne (h : k ≠ start) : landed start n k = shifted start n k := by
  unfold shifted landed
  by_cases hk : k < start
  · rw [if_pos hk, if_pos hk.le]
  · rw [if_neg hk, if_neg (by omega)]

end

/-! ## The two texts -/

section
variable {p x : List Char} (q : List Char)

theorem getElem?_shifted (p x q : List Char) (k : Nat) :
    (p ++ x ++ q)[shifted p.length x.length k]? = (p ++ q)[k]? := by
  unfold shifted
  by_cases hk : k < p.length
  · rw [if_pos hk, List.append_assoc, List.getElem?_append_left hk, List.getElem?_append_left hk]
  · have hlen : (p ++ x).length = p.length + x.length := List.length_append
    rw [if_neg hk, List.getElem?_append_right (by omega), List.getElem?_append_right (by omega), hlen]
    congr 1
    omega

theorem drop_inserted (p x q : List Char) : (p ++ x ++ q).drop p.length = x ++ q := by
  rw [List.append_assoc, List.drop_left]

theorem Idle.exists_render (h : Idle p x) : ∃ b : Block, b.render = x := by
  cases h with
  | upDown => exact ⟨.command ⟨'+', by decide⟩ (.command ⟨'-', by decide⟩ .empty), rfl⟩
  | downUp => exact ⟨.command ⟨'-', by decide⟩ (.command ⟨'+', by decide⟩ .empty), rfl⟩
  | rightLeft => exact ⟨.command ⟨'>', by decide⟩ (.command ⟨'<', by decide⟩ .empty), rfl⟩
  | leftRight => exact ⟨.command ⟨'<', by decide⟩ (.command ⟨'>', by decide⟩ .empty), rfl⟩
  | deadLoop hbody _ =>
    obtain ⟨b, hb⟩ := Block.exists_parse_of_balanced hbody
    have hr := Block.parse_eq_some_iff.mp hb
    exact ⟨.loop b .empty, by simp [Block.render, hr]⟩

theorem Idle.openAt_landed (h : Idle p x) (k : Nat) :
    openAt (p ++ x ++ q) (shifted p.length x.length k) = openAt (p ++ x ++ q) (landed p.length x.length k) := by
  by_cases hk : k = p.length
  · obtain ⟨b, rfl⟩ := h.exists_render
    subst hk
    rw [landed_self, shifted, if_neg (Nat.lt_irrefl _)]
    exact openAt_render b (drop_inserted ..)
  · rw [landed_of_ne hk]

theorem Idle.openAt_shifted (h : Idle p x) (k : Nat) :
    openAt (p ++ x ++ q) (shifted p.length x.length k) =
      (openAt (p ++ q) k).map (shifted p.length x.length) := by
  induction k with
  | zero => rw [h.openAt_landed]; simp [landed]
  | succ k ih =>
    rw [h.openAt_landed, ← shifted_add_one]
    have hget := getElem?_shifted p x q k
    cases hc : (p ++ q)[k]? with
    | none =>
      rw [hc] at hget
      rw [openAt_succ_of_getElem?_eq_none hget, openAt_succ_of_getElem?_eq_none hc, ih]
    | some c =>
      rw [hc] at hget
      rw [openAt_succ hget, openAt_succ hc, ih]
      split <;> simp

theorem Idle.partner?_shifted (h : Idle p x) {k : Nat} (hk : (p ++ q)[k]? = some '[') :
    (Brackets.ofList (p ++ x ++ q)).partner? (shifted p.length x.length k) =
      ((Brackets.ofList (p ++ q)).partner? k).map (shifted p.length x.length) := by
  refine partner?_renumber (h.openAt_shifted q) ?_ ?_ hk
  · intro b j hj
    rw [getElem?_shifted, hj]
  · unfold shifted
    rw [if_neg (by simp)]
    simp; omega

end

/-! ## Tapes that show one line -/

def Tape.SameLine (w : CellWidth) (t t' : Tape) : Prop :=
  ∃ l : Line w, t.Shows l ∧ t'.Shows l

namespace Tape
variable {w : CellWidth} {t t' : Tape} {l : Line w}

theorem SameLine.current_eq (h : SameLine w t t') : t'.current = t.current := by
  obtain ⟨l, h1, h2⟩ := h
  rw [h1.current, h2.current]

theorem SameLine.onTape (h : SameLine w t t') (a : Action) : SameLine w (a.onTape t) (a.onTape t') := by
  obtain ⟨l, h1, h2⟩ := h
  cases a with
  | moveRight => exact ⟨_, h1.moveRight, h2.moveRight⟩
  | moveLeft => exact ⟨_, h1.moveLeft, h2.moveLeft⟩
  | increment => exact ⟨_, h1.increment, h2.increment⟩
  | decrement => exact ⟨_, h1.decrement, h2.decrement⟩
  | read c => exact ⟨_, h1.set c.toNat, h2.set c.toNat⟩
  | _ => exact ⟨l, h1, h2⟩

theorem Shows.decrement_increment (h : t.Shows l) : t.increment.decrement.Shows l := by
  have := h.increment.decrement
  rwa [Line.cell_store, BitVec.add_sub_cancel, Line.store_store, Line.store_cell] at this

theorem Shows.increment_decrement (h : t.Shows l) : t.decrement.increment.Shows l := by
  have := h.decrement.increment
  rwa [Line.cell_store, BitVec.sub_add_cancel, Line.store_store, Line.store_cell] at this

theorem Shows.moveLeft_moveRight (h : t.Shows l) : t.moveRight.moveLeft.Shows l := by
  have := h.moveRight.moveLeft
  simpa using this

theorem Shows.moveRight_moveLeft (h : t.Shows l) : t.moveLeft.moveRight.Shows l := by
  have := h.moveLeft.moveRight
  simpa using this

end Tape

/-! ## Passing through the part -/

section
variable {w : CellWidth} {p x q text : List Char} {s : State} {l : Line w}

def TapeOnly (i : Instruction) (a : Action) : Prop :=
  ∀ (code : Code) (u : State), u.instructionAction code i = .ok a ∧
    u.perform a = { u with ip := u.ip + 1, tape := a.onTape u.tape }

theorem TapeOnly.reaches {i : Instruction} {a : Action} (h : TapeOnly i a) (hm : s.mode = .running)
    (hc : text[s.ip]? = some i.symbol) (strategy : LoopStrategy) :
    Reaches (Code.ofList strategy text) 1 s { s with ip := s.ip + 1, tape := a.onTape s.tape } := by
  obtain ⟨ha, hp⟩ := h (Code.ofList strategy text) s
  rw [← hp]
  refine .single ((getElem?_text_ofList ..).trans hc) ?_
  rw [action_running hm (Instruction.ofChar?_symbol i), ha]

theorem TapeOnly.reaches_two {i j : Instruction} {a b : Action} (hi : TapeOnly i a) (hj : TapeOnly j b)
    (hm : s.mode = .running) (hd : text.drop s.ip = i.symbol :: j.symbol :: q) (strategy : LoopStrategy) :
    Reaches (Code.ofList strategy text) 2 s
      { s with ip := s.ip + 2, tape := b.onTape (a.onTape s.tape) } := by
  obtain ⟨hc, hd'⟩ := getElem?_of_drop hd
  obtain ⟨hc', -⟩ := getElem?_of_drop hd'
  have h1 := hi.reaches hm hc strategy
  have h2 := hj.reaches (s := { s with ip := s.ip + 1, tape := a.onTape s.tape }) hm hc' strategy
  exact h1.trans h2

theorem tapeOnly_increment : TapeOnly .increment .increment := fun _ _ => ⟨rfl, rfl⟩

theorem tapeOnly_decrement : TapeOnly .decrement .decrement := fun _ _ => ⟨rfl, rfl⟩

theorem tapeOnly_moveRight : TapeOnly .moveRight .moveRight := fun _ _ => ⟨rfl, rfl⟩

theorem tapeOnly_moveLeft : TapeOnly .moveLeft .moveLeft := fun _ _ => ⟨rfl, rfl⟩

theorem Idle.reaches (h : Idle p x) (hm : s.mode = .running) (hip : s.ip = p.length)
    (hcell : p = [] ∨ p.getLast? = some ']' → s.tape.current = 0) (hs : s.tape.Shows l) :
    ∃ n t, Reaches (Code.ofList .jumpTable (p ++ x ++ q)) n s
      { s with ip := p.length + x.length, tape := t } ∧ t.Shows l := by
  have hd := drop_inserted p x q
  rw [← hip] at hd ⊢
  cases h with
  | upDown =>
    exact ⟨2, _, tapeOnly_increment.reaches_two tapeOnly_decrement hm hd .jumpTable, hs.decrement_increment⟩
  | downUp =>
    exact ⟨2, _, tapeOnly_decrement.reaches_two tapeOnly_increment hm hd .jumpTable, hs.increment_decrement⟩
  | rightLeft =>
    exact ⟨2, _, tapeOnly_moveRight.reaches_two tapeOnly_moveLeft hm hd .jumpTable, hs.moveLeft_moveRight⟩
  | leftRight =>
    exact ⟨2, _, tapeOnly_moveLeft.reaches_two tapeOnly_moveRight hm hd .jumpTable, hs.moveRight_moveLeft⟩
  | @deadLoop body hbody hfront =>
    obtain ⟨b, hb⟩ := Block.exists_parse_of_balanced hbody
    have hr := Block.parse_eq_some_iff.mp hb
    subst hr
    have hloop : (p ++ '[' :: (b.render ++ [']']) ++ q).drop s.ip = '[' :: (b.render ++ ']' :: q) := by
      rw [hd]
      simp
    have hjump := jumpForward_reaches hm (hcell hfront) (pair_render hloop)
    refine ⟨1, s.tape, ?_, hs⟩
    have hlen : s.ip + ('[' :: (b.render ++ [']'])).length = s.ip + 1 + b.render.length + 1 := by
      simp; omega
    rw [hlen]
    exact hjump

end

/-! ## Side by side -/

section
variable {w : CellWidth} {p x q : List Char} {s s' : State} {t : Tape}

structure Carried (w : CellWidth) (p x q : List Char) (s s' : State) : Prop where
  tracks : Tracks .jumpTable (p ++ q) s
  running : s.mode = .running
  shifted : ∃ t, s.tape.SameLine w t ∧ s' = (s.renumber (shifted p.length x.length)).withTape t

theorem Idle.arrives (h : Idle p x) (ht : Tracks .jumpTable (p ++ q) s) (hm : s.mode = .running)
    (hcell : s.ip = p.length → p = [] ∨ p.getLast? = some ']' → s.tape.current = 0)
    (hs : s.tape.SameLine w t) :
    ∃ n s', Reaches (Code.ofList .jumpTable (p ++ x ++ q)) n
      (((s.renumber (shifted p.length x.length)).withTape t).goto (landed p.length x.length s.ip)) s' ∧
        Carried w p x q s s' := by
  by_cases hip : s.ip = p.length
  · have hcurrent := hs.current_eq
    obtain ⟨l, hl, hl'⟩ := hs
    have hmode : (s.renumber (shifted p.length x.length)).mode = .running := by
      simp [State.renumber, hm, Mode.renumber]
    obtain ⟨n, t', hr, ht'⟩ := h.reaches (q := q)
      (s := ((s.renumber (shifted p.length x.length)).withTape t).goto p.length) hmode rfl
      (fun hp => hcurrent.trans (hcell hip hp)) hl'
    refine ⟨n, _, ?_, ht, hm, t', ⟨l, hl, ht'⟩, rfl⟩
    have hend : (s.renumber (shifted p.length x.length)).ip = p.length + x.length := by
      simp [State.renumber, hip, shifted]
    rw [hip, landed_self]
    rw [← hend] at hr
    exact hr
  · rw [landed_of_ne hip]
    exact ⟨0, _, .refl _, ht, hm, t, hs, rfl⟩

theorem onTape_renumber (ρ : Nat → Nat) (a : Action) (t : Tape) : (a.renumber ρ).onTape t = a.onTape t := by
  cases a <;> rfl

theorem perform_shifted (ρ : Nat → Nat) (s : State) (t : Tape) (a : Action) :
    ((s.renumber ρ).withTape t).perform (a.renumber ρ) =
      (((s.perform a).renumber ρ).withTape (a.onTape t)).goto (ρ (a.leaves s) + 1) := by
  rw [perform_withTape, perform_renumber_eq, onTape_renumber]
  rfl

theorem Idle.action_shifted (h : Idle p x) {c : Char} (hs : s.tape.SameLine w t) (hc : (p ++ q)[s.ip]? = some c) :
    ((s.renumber (shifted p.length x.length)).withTape t).action (Code.ofList .jumpTable (p ++ x ++ q)) c =
      renumberOutcome (shifted p.length x.length) (s.action (Code.ofList .jumpTable (p ++ q)) c) := by
  rw [action_withTape (show t.current = (s.renumber _).tape.current from hs.current_eq)]
  apply action_renumber
  intro hopen
  rw [hopen] at hc
  exact h.partner?_shifted q hc

/-- **The part is passed through.** -/
theorem Idle.simulation (h : Idle p x) (w : CellWidth) (q : List Char) :
    Simulation (Code.ofList .jumpTable (p ++ q)) (Code.ofList .jumpTable (p ++ x ++ q)) (Carried w p x q)
      (·.mapError (·.renumber (shifted p.length x.length))) where
  step := by
    intro s s' c a hR hc ha
    obtain ⟨htracks, hm, t, hs, rfl⟩ := hR
    rw [getElem?_text_ofList] at hc
    have htracks' := htracks.perform hc ha
    have hm' := mode_perform_jumpTable hm (obeys_of_action hm ha)
    have ha' := (h.action_shifted hs hc).trans (congrArg (renumberOutcome _) ha)
    have hc' := (getElem?_shifted p x q s.ip).trans hc
    -- a loop that is put in stands behind a bracket, so the machine gets there with a zero cell
    have hcell : (s.perform a).ip = p.length → p = [] ∨ p.getLast? = some ']' →
        (s.perform a).tape.current = 0 := by
      intro hip hp
      rw [ip_perform] at hip
      refine (htracks.cell_behind_bracket hc ha hm').2 ?_
      rcases hp with rfl | hp
      · cases hip
      · rw [List.getLast?_eq_getElem?, ← hip] at hp
        rw [List.getElem?_append_left (by omega)]
        exact hp
    have hsame := hs.onTape a
    rw [← tape_perform] at hsame
    obtain ⟨n, u, hr, hR'⟩ := h.arrives htracks' hm' hcell hsame
    refine ⟨n, u, ?_, hR'⟩
    rw [ip_perform, ← shifted_add_one, ← perform_shifted] at hr
    exact .step ((getElem?_text_ofList ..).trans hc') ha' hr
  fail := by
    intro s s' c u hR hc ha
    obtain ⟨-, -, t, hs, rfl⟩ := hR
    rw [getElem?_text_ofList] at hc
    have ha' := (h.action_shifted hs hc).trans (congrArg (renumberOutcome _) ha)
    have hc' := (getElem?_shifted p x q s.ip).trans hc
    exact ⟨1, .fail ((getElem?_text_ofList ..).trans hc') ha'⟩
  finish := by
    intro s s' hR hc
    obtain ⟨-, -, t, -, rfl⟩ := hR
    rw [getElem?_text_ofList] at hc
    have hc' := (getElem?_shifted p x q s.ip).trans hc
    exact ⟨0, .finish ((getElem?_text_ofList ..).trans hc') (finish_renumber ..)⟩

end

/-! ## Executions -/

def RunError.shift (start n : Nat) : RunError → RunError
  | unmatched u => unmatched (u.renumber (shifted start n))
  | cause => cause

namespace Engine

theorem returns_adapt_iff (e : Engine) (strategy : LoopStrategy) (program input : String)
    (result : Except RunError String) :
    (e.adapt strategy none).Returns program input result ↔
      ∃ n r, Halts (Code.ofList .jumpTable program.toList) (e.initial input) n r ∧
        result = r.mapError .unmatched := by
  cases strategy with
  | scan =>
    rw [e.returns_scan_iff, returns_unlimited_iff rfl]
    rfl
  | jumpTable =>
    rw [returns_unlimited_iff rfl]
    rfl

theorem halts_inserted_iff (e : Engine) {p x : List Char} (h : Idle p x) (q : List Char) (input : String)
    (r' : Except Unmatched String) :
    (∃ m, Halts (Code.ofList .jumpTable (p ++ x ++ q)) (e.initial input) m r') ↔
      ∃ n r, Halts (Code.ofList .jumpTable (p ++ q)) (e.initial input) n r ∧
        r' = r.mapError (·.renumber (shifted p.length x.length)) := by
  have hsim := h.simulation e.cellWidth q
  have hshows : (e.initial input).tape.Shows (Line.blank e.cellWidth) := Tape.shows_new ..
  -- a part at the very start is passed through before the first step of the other machine
  obtain ⟨k, s', hr, hR⟩ := h.arrives (q := q) (s := e.initial input) (tracks_initial ..) rfl (fun _ _ => rfl)
    ⟨_, hshows, hshows⟩
  have hstart : ((((e.initial input).renumber (shifted p.length x.length)).withTape (e.initial input).tape).goto
      (landed p.length x.length 0)) = e.initial input := by
    rw [landed, if_pos (Nat.zero_le _)]
    rfl
  rw [show (e.initial input).ip = 0 from rfl, hstart] at hr
  rw [← hsim.halts_iff hR]
  constructor
  · intro ⟨m, hm⟩
    obtain ⟨j, -, hj⟩ := hr.halts_iff.mp hm
    exact ⟨j, hj⟩
  · intro ⟨m, hm⟩
    exact ⟨_, hr.halts hm⟩

theorem mapError_shift (start n : Nat) (r : Except Unmatched String) :
    (r.mapError RunError.unmatched).mapError (·.shift start n) =
      (r.mapError (·.renumber (shifted start n))).mapError .unmatched := by
  cases r <;> rfl

/-- **Idle parts do not matter.** With such a part put in, a program comes to an end exactly when it
does without, and it comes to the same; a bracket behind the part is found at its shifted place. -/
theorem idle_insertion (e : Engine) (strategy : LoopStrategy) {p x : String} (h : Idle p.toList x.toList)
    (q input : String) (result' : Except RunError String) :
    (e.adapt strategy none).Returns (p ++ x ++ q) input result' ↔
      ∃ result, (e.adapt strategy none).Returns (p ++ q) input result ∧
        result' = result.mapError (·.shift p.length x.length) := by
  have hiff := e.halts_inserted_iff h q.toList input
  simp only [returns_adapt_iff, String.toList_append]
  constructor
  · intro ⟨m, r', hm, hr'⟩
    obtain ⟨n, r, hn, rfl⟩ := (hiff r').mp ⟨m, hm⟩
    exact ⟨_, ⟨n, r, hn, rfl⟩, hr'.trans (mapError_shift ..).symm⟩
  · intro ⟨result, ⟨n, r, hn, hr⟩, hr'⟩
    obtain ⟨m, hm⟩ := (hiff _).mpr ⟨n, r, hn, rfl⟩
    refine ⟨m, _, hm, ?_⟩
    rw [hr', hr]
    exact mapError_shift ..

theorem idle_insertion_dead_loop :
    Idle "+[-]".toList "[>[-]<.]".toList ∧
      (standard.adapt .scan none).Returns ("+[-]" ++ "[>[-]<.]" ++ ">]") ""
        (.error (.unmatched { place := 13, bracket := .closing })) := by
  have hx : "[>[-]<.]".toList = '[' :: (">[-]<.".toList ++ [']']) := by decide
  have h : Idle "+[-]".toList "[>[-]<.]".toList := by
    rw [hx]
    exact .deadLoop (by decide) (Or.inr rfl)
  refine ⟨h, (idle_insertion standard .scan h ">]" "" _).mpr ⟨_, ⟨7, rfl⟩, ?_⟩⟩
  rfl

end Engine

end Brainfuck
