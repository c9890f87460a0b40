import Brainfuck.Proofs.Line
import Brainfuck.Proofs.Strategies
import Brainfuck.Proofs.Structured.Block

/-!
# The meaning of a block

`BigStep` gives blocks their meaning on a line of cells without ends: a loop repeats its body
while the cell is not zero. The machine knows no blocks; it has a place in the text and
a stack of loops. Over the text of a block it does what the block means, and leaves the stack as it
found it (`reaches_of_bigStep`); and if it ever gets to the end of all, then the block has a
meaning (`bigStep_of_halts`). The first is an induction on derivations, the second on the length
of the run.

In both a closing bracket is taken for the opening one it belongs to: from the end of the body
the machine goes on exactly as it would go on from the start of the loop (`halts_close_iff`).
-/

namespace Brainfuck

structure Config (w : CellWidth) where
  line : Line w
  input : List Char
  output : List Char

namespace Config
variable {w : CellWidth}

def start (w : CellWidth) (input : List Char) : Config w :=
  { line := Line.blank w, input, output := [] }

/-- What a command does. A character that is none of the six does nothing. -/
def obey (σ : Config w) (k : Command) : Config w :=
  match k.symbol with
  | '>' => { σ with line := σ.line.moveRight }
  | '<' => { σ with line := σ.line.moveLeft }
  | '+' => { σ with line := σ.line.store (σ.line.cell + 1) }
  | '-' => { σ with line := σ.line.store (σ.line.cell - 1) }
  | '.' => { σ with output := σ.output ++ [cellChar σ.line.cell.toNat] }
  | ',' =>
    match σ.input with
    | [] => σ
    | c :: rest => { σ with line := σ.line.store (BitVec.ofNat _ c.toNat), input := rest }
  | _ => σ

end Config

inductive BigStep {w : CellWidth} : Block → Config w → Config w → Prop
  | empty (σ : Config w) : BigStep .empty σ σ
  | command {k : Command} {rest : Block} {σ τ : Config w} (h : BigStep rest (σ.obey k) τ) :
      BigStep (.command k rest) σ τ
  | loopEnd {body rest : Block} {σ τ : Config w} (hcell : σ.line.cell = 0) (h : BigStep rest σ τ) :
      BigStep (.loop body rest) σ τ
  | loopAgain {body rest : Block} {σ ρ τ : Config w} (hcell : σ.line.cell ≠ 0)
      (hbody : BigStep body σ ρ) (h : BigStep (.loop body rest) ρ τ) :
      BigStep (.loop body rest) σ τ

/-! ## The text of a block -/

section
variable {text post : List Char} {c : Char} {k : Nat}

theorem getElem?_of_drop (h : text.drop k = c :: post) : text[k]? = some c ∧ text.drop (k + 1) = post := by
  have hc : (text.drop k)[0]? = some c := by rw [h]; rfl
  rw [List.getElem?_drop, Nat.add_zero] at hc
  refine ⟨hc, ?_⟩
  rw [← List.drop_drop, h]; rfl

theorem drop_add_length {front : List Char} (h : text.drop k = front ++ post) :
    text.drop (k + front.length) = post := by
  rw [← List.drop_drop, h, List.drop_left]

theorem openAt_render (b : Block) : ∀ {k : Nat} {post : List Char}, text.drop k = b.render ++ post →
    openAt text (k + b.render.length) = openAt text k := by
  induction b with
  | empty => intro k post _; rfl
  | command cmd rest ih =>
    intro k post h
    obtain ⟨hc, hrest⟩ := getElem?_of_drop (show text.drop k = cmd.symbol :: (rest.render ++ post) from h)
    have := ih hrest
    rw [Block.render, List.length_cons, Nat.add_comm _ 1, ← Nat.add_assoc, this,
      openAt_succ_plain hc cmd.symbol_ne.1 cmd.symbol_ne.2]
  | loop body rest ihb ihr =>
    intro k post h
    have h' : text.drop k = '[' :: (body.render ++ (']' :: (rest.render ++ post))) := by
      rw [h]; simp [Block.render]
    obtain ⟨ho, hbody⟩ := getElem?_of_drop h'
    obtain ⟨hcl, hrest⟩ := getElem?_of_drop (drop_add_length hbody)
    have h1 := ihb hbody
    have h2 := ihr hrest
    have hlen : (Block.loop body rest).render.length = 1 + body.render.length + 1 + rest.render.length := by
      simp [Block.render]; omega
    rw [hlen, ← Nat.add_assoc, ← Nat.add_assoc, ← Nat.add_assoc, h2, openAt_succ_close hcl, h1,
      openAt_succ_open ho]; rfl

theorem pair_render {body : Block} (h : text.drop k = '[' :: (body.render ++ ']' :: post)) :
    Pair text k (k + 1 + body.render.length) := by
  obtain ⟨ho, hbody⟩ := getElem?_of_drop h
  obtain ⟨hcl, -⟩ := getElem?_of_drop (drop_add_length hbody)
  refine ⟨ho, hcl, ?_⟩
  rw [openAt_render body hbody, openAt_succ_open ho]

end

/-! ## Commands -/

structure Agrees {w : CellWidth} (s : State) (σ : Config w) : Prop where
  mode : s.mode = .running
  tape : s.tape.Shows σ.line
  input : s.input = σ.input
  output : s.output = String.ofList σ.output

theorem push_ofList (cs : List Char) (c : Char) : (String.ofList cs).push c = String.ofList (cs ++ [c]) := by
  apply String.toList_injective
  simp

section
variable {w : CellWidth} {s : State} {σ τ : Config w}

theorem ofChar?_eq_none_of_ne {c : Char} (h : ∀ i : Instruction, c ≠ i.symbol) :
    Instruction.ofChar? c = none := by
  cases hi : Instruction.ofChar? c with
  | none => rfl
  | some i => exact absurd (Instruction.ofChar?_eq_some_iff.mp hi) (h i)

theorem Agrees.obey (code : Code) (h : Agrees s σ) (k : Command) :
    ∃ a, s.action code k.symbol = .ok a ∧ (s.perform a).ip = s.ip + 1 ∧
      (s.perform a).loops = s.loops ∧ Agrees (s.perform a) (σ.obey k) := by
  unfold Config.obey
  split
  · rename_i hk
    exact ⟨.moveRight, by rw [hk, action_running h.mode rfl]; rfl, rfl, rfl,
      h.mode, h.tape.moveRight, h.input, h.output⟩
  · rename_i hk
    exact ⟨.moveLeft, by rw [hk, action_running h.mode rfl]; rfl, rfl, rfl,
      h.mode, h.tape.moveLeft, h.input, h.output⟩
  · rename_i hk
    exact ⟨.increment, by rw [hk, action_running h.mode rfl]; rfl, rfl, rfl,
      h.mode, h.tape.increment, h.input, h.output⟩
  · rename_i hk
    exact ⟨.decrement, by rw [hk, action_running h.mode rfl]; rfl, rfl, rfl,
      h.mode, h.tape.decrement, h.input, h.output⟩
  · rename_i hk
    refine ⟨.write (cellChar s.tape.current), by rw [hk, action_running h.mode rfl]; rfl, rfl, rfl,
      h.mode, h.tape, h.input, ?_⟩
    show s.output.push (cellChar s.tape.current) = _
    rw [h.output, push_ofList, h.tape.current]
  · rename_i hk
    cases hin : σ.input with
    | nil =>
      have hin' := h.input.trans hin
      refine ⟨.readNothing, ?_, rfl, rfl, h.mode, h.tape, h.input, h.output⟩
      rw [hk, action_running h.mode rfl, State.instructionAction, hin']
    | cons c rest =>
      have hin' := h.input.trans hin
      refine ⟨.read c, ?_, rfl, rfl, h.mode, h.tape.set c.toNat, ?_, h.output⟩
      · rw [hk, action_running h.mode rfl, State.instructionAction, hin']
      · show s.input.tail = rest
        rw [hin']; rfl
  · rename_i h1 h2 h3 h4 h5 h6
    have hnone : Instruction.ofChar? k.symbol = none := by
      refine ofChar?_eq_none_of_ne fun i => ?_
      cases i with
      | moveRight => exact h1
      | moveLeft => exact h2
      | increment => exact h3
      | decrement => exact h4
      | write => exact h5
      | read => exact h6
      | openLoop => exact k.symbol_ne.1
      | closeLoop => exact k.symbol_ne.2
    refine ⟨.ignore, ?_, rfl, rfl, h.mode, h.tape, h.input, h.output⟩
    simp only [State.action, h.mode, hnone]

theorem Agrees.place (h : Agrees s σ) (ip : Nat) (loops : List Nat) :
    Agrees { s with ip, loops } σ :=
  ⟨h.mode, h.tape, h.input, h.output⟩

/-! ## Loops -/

variable {text post : List Char} {body rest : Block}

theorem render_loop (h : text.drop s.ip = (Block.loop body rest).render ++ post) :
    text.drop s.ip = '[' :: (body.render ++ ']' :: (rest.render ++ post)) := by
  rw [h]; simp [Block.render]

theorem jumpForward_reaches {close : Nat} (hm : s.mode = .running) (hcell : s.tape.current = 0)
    (hp : Pair text s.ip close) :
    Reaches (Code.ofList .jumpTable text) 1 s { s with ip := close + 1 } := by
  refine .single ((getElem?_text_ofList ..).trans hp.opens) (a := .jumpForward close) ?_
  rw [action_running hm rfl]
  simp [State.instructionAction, State.openAction, hcell, Code.ofList, (partner?_of_pair hp).1]

theorem enterLoop_reaches (hm : s.mode = .running) (hcell : s.tape.current ≠ 0)
    (ho : text[s.ip]? = some '[') :
    Reaches (Code.ofList .jumpTable text) 1 s { s with ip := s.ip + 1, loops := s.ip :: s.loops } := by
  refine .single ((getElem?_text_ofList ..).trans ho) (a := .enterLoop) ?_
  rw [action_running hm rfl]
  exact if_pos hcell

theorem jumpBack_reaches {start : Nat} {outer : List Nat} (hm : s.mode = .running)
    (hcell : s.tape.current ≠ 0) (hc : text[s.ip]? = some ']') (hl : s.loops = start :: outer) :
    Reaches (Code.ofList .jumpTable text) 1 s { s with ip := start + 1 } := by
  refine .single ((getElem?_text_ofList ..).trans hc) (a := .jumpBack start) ?_
  rw [action_running hm rfl]
  simp [State.instructionAction, State.closeAction, hl, hcell]

theorem exitLoop_reaches {start : Nat} {outer : List Nat} (hm : s.mode = .running)
    (hcell : s.tape.current = 0) (hc : text[s.ip]? = some ']') (hl : s.loops = start :: outer) :
    Reaches (Code.ofList .jumpTable text) 1 s { s with ip := s.ip + 1, loops := outer } := by
  have hs : { s with ip := s.ip + 1, loops := outer } = s.perform .exitLoop := by
    simp only [State.perform, hl, List.tail_cons]
  rw [hs]
  refine .single ((getElem?_text_ofList ..).trans hc) ?_
  rw [action_running hm rfl]
  simp [State.instructionAction, State.closeAction, hl, hcell]

/-- **The end of the body is the start of the loop.** A closing bracket does what its partner would
do with the same cell. -/
theorem halts_close_iff {start close : Nat} {outer : List Nat} {n : Nat} {r : Except Unmatched String}
    (hp : Pair text start close) (hm : s.mode = .running) (hip : s.ip = close)
    (hl : s.loops = start :: outer) :
    Halts (Code.ofList .jumpTable text) s n r ↔
      Halts (Code.ofList .jumpTable text) { s with ip := start, loops := outer } n r := by
  have hc : text[s.ip]? = some ']' := by rw [hip]; exact hp.closes
  by_cases hcell : s.tape.current = 0
  · have h1 := exitLoop_reaches hm hcell hc hl
    have h2 := jumpForward_reaches (s := { s with ip := start, loops := outer }) hm hcell hp
    rw [hip] at h1
    rw [h1.halts_iff, h2.halts_iff]
  · have h1 := jumpBack_reaches hm hcell hc hl
    have h2 := enterLoop_reaches (s := { s with ip := start, loops := outer }) hm hcell hp.opens
    rw [h1.halts_iff, h2.halts_iff]
    simp only [hl]

/-! ## From the block to the machine -/

theorem reaches_of_bigStep {b : Block} (h : BigStep b σ τ) :
    ∀ {s : State} {post : List Char}, text.drop s.ip = b.render ++ post → Agrees s σ →
      ∃ t, t.ip = s.ip + b.render.length ∧ t.loops = s.loops ∧ Agrees t τ ∧
        ∀ n r, Halts (Code.ofList .jumpTable text) t n r →
          ∃ m, Halts (Code.ofList .jumpTable text) s m r := by
  induction h with
  | empty σ => exact fun _ hs => ⟨_, rfl, rfl, hs, fun n r hh => ⟨n, hh⟩⟩
  | @command k rest σ τ _ ih =>
    intro s post hd hs
    obtain ⟨hc, hrest⟩ := getElem?_of_drop (show text.drop s.ip = k.symbol :: (rest.render ++ post) from hd)
    obtain ⟨a, ha, hip, hl, hs'⟩ := hs.obey (Code.ofList .jumpTable text) k
    rw [← hip] at hrest
    obtain ⟨t, htip, htl, ht, hback⟩ := ih hrest hs'
    refine ⟨t, ?_, htl.trans hl, ht, fun n r hh => ?_⟩
    · rw [htip, hip, Block.render, List.length_cons]; omega
    · obtain ⟨m, hm⟩ := hback n r hh
      exact ⟨m + 1, .step ((getElem?_text_ofList ..).trans hc) ha hm⟩
  | @loopEnd body rest σ τ hcell _ ih =>
    intro s post hd hs
    have hd' := render_loop hd
    have hp := pair_render hd'
    have hzero := hs.tape.current_eq_zero_iff.mpr hcell
    obtain ⟨-, hbody⟩ := getElem?_of_drop hd'
    obtain ⟨-, hrest⟩ := getElem?_of_drop (drop_add_length hbody)
    obtain ⟨t, htip, htl, ht, hback⟩ := ih (s := { s with ip := s.ip + 1 + body.render.length + 1 }) hrest
      (hs.place ..)
    refine ⟨t, ?_, htl, ht, fun n r hh => ?_⟩
    · rw [htip]; simp [Block.render]; omega
    · obtain ⟨m, hm⟩ := hback n r hh
      exact ⟨m + 1, (jumpForward_reaches hs.mode hzero hp).halts hm⟩
  | @loopAgain body rest σ ρ τ hcell _ _ ihb ihl =>
    intro s post hd hs
    have hd' := render_loop hd
    have hp := pair_render hd'
    have hne : s.tape.current ≠ 0 := fun h0 => hcell (hs.tape.current_eq_zero_iff.mp h0)
    obtain ⟨ho, hbody⟩ := getElem?_of_drop hd'
    obtain ⟨t₁, hip₁, hl₁, ht₁, hback₁⟩ :=
      ihb (s := { s with ip := s.ip + 1, loops := s.ip :: s.loops }) hbody (hs.place ..)
    obtain ⟨t, htip, htl, ht, hback⟩ :=
      ihl (s := { t₁ with ip := s.ip, loops := s.loops }) hd (ht₁.place ..)
    refine ⟨t, htip, htl, ht, fun n r hh => ?_⟩
    obtain ⟨m, hm⟩ := hback n r hh
    obtain ⟨m', hm'⟩ := hback₁ m r ((halts_close_iff hp ht₁.mode hip₁ hl₁).mpr hm)
    exact ⟨m' + 1, (enterLoop_reaches hs.mode hne ho).halts hm'⟩

/-! ## From the machine to the block -/

theorem bigStep_of_halts {r : Except Unmatched String} (n : Nat) :
    ∀ {s : State} {b : Block} {σ : Config w} {post : List Char}, text.drop s.ip = b.render ++ post →
      Agrees s σ → Halts (Code.ofList .jumpTable text) s n r →
      ∃ τ t m, BigStep b σ τ ∧ t.ip = s.ip + b.render.length ∧ t.loops = s.loops ∧ Agrees t τ ∧
        m ≤ n ∧ Halts (Code.ofList .jumpTable text) t m r := by
  induction n using Nat.strong_induction_on with
  | _ n ih =>
    intro s b σ post hd hs hh
    cases b with
    | empty => exact ⟨σ, s, n, .empty σ, rfl, rfl, hs, Nat.le_refl _, hh⟩
    | command k rest =>
      obtain ⟨hc, hrest⟩ := getElem?_of_drop (show text.drop s.ip = k.symbol :: (rest.render ++ post) from hd)
      obtain ⟨a, ha, hip, hl, hs'⟩ := hs.obey (Code.ofList .jumpTable text) k
      obtain ⟨j, rfl, hj⟩ := hh.step_inv ((getElem?_text_ofList ..).trans hc) ha
      rw [← hip] at hrest
      obtain ⟨τ, t, m, hbig, htip, htl, ht, hle, hm⟩ := ih j (Nat.lt_succ_self j) hrest hs' hj
      refine ⟨τ, t, m, .command hbig, ?_, htl.trans hl, ht, Nat.le_succ_of_le hle, hm⟩
      rw [htip, hip, Block.render, List.length_cons]; omega
    | loop body rest =>
      have hd' := render_loop hd
      have hp := pair_render hd'
      obtain ⟨ho, hbody⟩ := getElem?_of_drop hd'
      by_cases hcell : s.tape.current = 0
      · obtain ⟨-, hrest⟩ := getElem?_of_drop (drop_add_length hbody)
        obtain ⟨j, rfl, hj⟩ := (jumpForward_reaches hs.mode hcell hp).halts_iff.mp hh
        obtain ⟨τ, t, m, hbig, htip, htl, ht, hle, hm⟩ := ih j (Nat.lt_succ_self j) hrest (hs.place ..) hj
        refine ⟨τ, t, m, .loopEnd (hs.tape.current_eq_zero_iff.mp hcell) hbig, ?_, htl, ht,
          Nat.le_succ_of_le hle, hm⟩
        rw [htip]; simp [Block.render]; omega
      · obtain ⟨j, rfl, hj⟩ := (enterLoop_reaches hs.mode hcell ho).halts_iff.mp hh
        obtain ⟨ρ, t₁, m₁, hbig₁, hip₁, hl₁, ht₁, hle₁, hm₁⟩ :=
          ih j (Nat.lt_succ_self j) hbody (hs.place ..) hj
        -- the body has used up a step, so the loop can be taken from its start again
        obtain ⟨τ, t, m, hbig, htip, htl, ht, hle, hm⟩ :=
          ih m₁ (Nat.lt_succ_of_le hle₁) (s := { t₁ with ip := s.ip, loops := s.loops }) hd (ht₁.place ..)
            ((halts_close_iff hp ht₁.mode hip₁ hl₁).mp hm₁)
        exact ⟨τ, t, m, .loopAgain (fun h0 => hcell (hs.tape.current_eq_zero_iff.mpr h0)) hbig₁ hbig,
          htip, htl, ht, by omega, hm⟩

theorem Agrees.finish_eq (h : Agrees s σ) (hl : s.loops = []) : s.finish = .ok (String.ofList σ.output) := by
  unfold State.finish
  rw [h.mode]
  simp only [hl, h.output]

theorem halts_render_iff {b : Block} {r : Except Unmatched String} (hs : Agrees s σ) (hip : s.ip = 0)
    (hl : s.loops = []) :
    (∃ n, Halts (Code.ofList .jumpTable b.render) s n r) ↔
      ∃ τ, BigStep b σ τ ∧ r = .ok (String.ofList τ.output) := by
  have hd : b.render.drop s.ip = b.render ++ [] := by rw [hip, List.drop_zero, List.append_nil]
  have hend : ∀ {t : State} {τ : Config w}, t.ip = s.ip + b.render.length → t.loops = s.loops →
      Agrees t τ → Halts (Code.ofList .jumpTable b.render) t 0 (.ok (String.ofList τ.output)) := by
    intro t τ htip htl ht
    refine .finish ?_ (ht.finish_eq (htl.trans hl))
    rw [getElem?_text_ofList, List.getElem?_eq_none_iff]
    omega
  constructor
  · rintro ⟨n, hh⟩
    obtain ⟨τ, t, m, hbig, htip, htl, ht, -, hm⟩ := bigStep_of_halts n hd hs hh
    exact ⟨τ, hbig, (hm.deterministic (hend htip htl ht)).2⟩
  · rintro ⟨τ, hbig, rfl⟩
    obtain ⟨t, htip, htl, ht, hback⟩ := reaches_of_bigStep hbig hd hs
    exact hback 0 _ (hend htip htl ht)

end

/-! ## Executions -/

namespace Engine

theorem agrees_initial (e : Engine) (input : String) :
    Agrees (e.initial input) (Config.start e.cellWidth input.toList) :=
  ⟨rfl, Tape.shows_new .., rfl, rfl⟩

theorem returns_render_iff (e : Engine) (strategy : LoopStrategy) {program : String} {b : Block}
    (hb : b.render = program.toList) (input : String) (result : Except RunError String) :
    (e.adapt strategy none).Returns program input result ↔
      ∃ τ, BigStep b (Config.start e.cellWidth input.toList) τ ∧
        result = .ok (String.ofList τ.output) := by
  have htable : (e.adapt strategy none).Returns program input result ↔
      (e.adapt .jumpTable none).Returns program input result := by
    cases strategy with
    | scan => exact e.returns_scan_iff program input result
    | jumpTable => exact Iff.rfl
  have hiff (r : Except Unmatched String) := halts_render_iff (b := b) (r := r) (e.agrees_initial input) rfl rfl
  rw [hb] at hiff
  rw [htable, returns_unlimited_iff rfl]
  constructor
  · rintro ⟨n, r, hh, rfl⟩
    obtain ⟨τ, hbig, rfl⟩ := (hiff r).mp ⟨n, hh⟩
    exact ⟨τ, hbig, rfl⟩
  · rintro ⟨τ, hbig, rfl⟩
    obtain ⟨n, hh⟩ := (hiff _).mpr ⟨τ, hbig, rfl⟩
    exact ⟨n, _, hh, rfl⟩

end Engine

/-- **Executions follow the meaning of blocks.** A balanced program stands for a block. Its execution
returns what the block writes and never an error, and it runs forever exactly when the block has
no end. -/
theorem Engine.execute_iff_bigStep {program : String} (h : Balanced program.toList) (e : Engine)
    (strategy : LoopStrategy) (input : String) :
    ∃ block, Block.parse program.toList = some block ∧
      (∀ o, (e.adapt strategy none).Returns program input (.ok o) ↔
        ∃ τ, BigStep block (Config.start e.cellWidth input.toList) τ ∧ String.ofList τ.output = o) ∧
      (∀ err, ¬ (e.adapt strategy none).Returns program input (.error err)) ∧
      ((∀ n, (e.adapt strategy none).execute n Controls.none none program input = none) ↔
        ¬ ∃ τ, BigStep block (Config.start e.cellWidth input.toList) τ) := by
  obtain ⟨block, hblock⟩ := Block.exists_parse_of_balanced h
  have hiff := e.returns_render_iff strategy (Block.parse_eq_some_iff.mp hblock) input
  refine ⟨block, hblock, fun o => ?_, fun err herr => ?_, ?_⟩
  · rw [hiff]
    refine exists_congr fun τ => and_congr_right fun _ => ?_
    rw [Except.ok.injEq, eq_comm]
  · obtain ⟨τ, -, hτ⟩ := (hiff _).mp herr
    cases hτ
  · rw [execute_eq_none_iff rfl]
    constructor
    · rintro hno ⟨τ, hbig⟩
      obtain ⟨n, r, hh, -⟩ := (returns_unlimited_iff rfl).mp ((hiff _).mpr ⟨τ, hbig, rfl⟩)
      exact hno n r hh
    · intro hno n r hh
      obtain ⟨τ, hbig, -⟩ := (hiff _).mp ((returns_unlimited_iff rfl).mpr ⟨n, r, hh, rfl⟩)
      exact hno ⟨τ, hbig⟩

theorem Engine.execute_iff_bigStep_move :
    Balanced "++[>+<-]>.".toList ∧ ∃ block, Block.parse "++[>+<-]>.".toList = some block ∧
      ∃ τ, BigStep block (Config.start .byte []) τ ∧ String.ofList τ.output = "\x02" := by
  have h : Balanced "++[>+<-]>.".toList := by decide
  refine ⟨h, ?_⟩
  obtain ⟨block, hblock, hok, -⟩ := Engine.execute_iff_bigStep h standard .scan ""
  exact ⟨block, hblock, (hok _).mp ⟨20, rfl⟩⟩

end Brainfuck
