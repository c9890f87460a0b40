import Brainfuck.Proofs.Nesting
import Brainfuck.Proofs.Record

/-!
# What holds of every state that is reached

The loops a machine has entered are the brackets that wait for a partner at its place,
as a pass over the text alone finds them (`Tracks`). While a loop is passed over, the
brackets inside it lie on top of the one that opened it, and their number is the depth.
Both survive every step, in texts with unmatched brackets too, and with them a step never
asks for anything that is not there.
-/

namespace Brainfuck

/-! ## Texts that close well -/

section
variable {text : List Char} {k : Nat}

theorem ClosesWell.mono {m : Nat} (h : ClosesWell text k) (hm : m ≤ k) : ClosesWell text m :=
  fun j hj hc => h j (Nat.lt_of_lt_of_le hj hm) hc

theorem ClosesWell.succ (h : ClosesWell text k) (hk : text[k]? = some ']' → openAt text k ≠ []) :
    ClosesWell text (k + 1) := by
  intro j hj hc
  rcases Nat.lt_succ_iff_lt_or_eq.mp hj with hlt | rfl
  · exact h j hlt hc
  · exact hk hc

theorem ClosesWell.pair {i j : Nat} (h : ClosesWell text i) (hp : Pair text i j) :
    ClosesWell text (j + 1) := by
  intro m hm hc
  rcases Nat.lt_trichotomy m i with hlt | rfl | hgt
  · exact h m hlt hc
  · rw [hp.opens] at hc; exact absurd hc (by decide)
  · exact List.ne_nil_of_mem ((hp.suffix hgt (Nat.lt_succ_iff.mp hm)).subset (List.mem_cons_self ..))

end

/-! ## The place, the loops and the mode -/

/-- The loops and the mode of a state, told from the brackets that wait at its place. -/
inductive Stacked (strategy : LoopStrategy) (text : List Char) (s : State) : Prop
  | running (hm : s.mode = .running) (hl : s.loops = openAt text s.ip)
  | skipping {o : Nat} (hm : s.mode = .skipping o (depthIn text o s.ip)) (ho : o ∈ openAt text s.ip)
      (hl : s.loops = openAt text o) (hs : strategy = .scan) (hcell : s.tape.current = 0)

structure Tracks (strategy : LoopStrategy) (text : List Char) (s : State) : Prop where
  ip_le : s.ip ≤ text.length
  closesWell : ClosesWell text s.ip
  stacked : Stacked strategy text s

theorem tracks_initial (strategy : LoopStrategy) (text : List Char) (tape : Tape) (input : List Char) :
    Tracks strategy text (State.initial tape input) where
  ip_le := Nat.zero_le _
  closesWell := fun _ hj => absurd hj (Nat.not_lt_zero _)
  stacked := .running rfl rfl

section
variable {strategy : LoopStrategy} {text : List Char} {s : State} {c : Char} {a : Action}

theorem Tracks.loops_eq (h : Tracks strategy text s) (hm : s.mode = .running) :
    s.loops = openAt text s.ip := by
  cases h.stacked with
  | running _ hl => exact hl
  | skipping hm' => rw [hm] at hm'; cases hm'

theorem Tracks.skipping_inv {o d : Nat} (h : Tracks strategy text s) (hm : s.mode = .skipping o d) :
    d = depthIn text o s.ip ∧ o ∈ openAt text s.ip ∧ s.loops = openAt text o ∧ strategy = .scan ∧
      s.tape.current = 0 := by
  cases h.stacked with
  | running hm' => rw [hm] at hm'; cases hm'
  | skipping hm' ho hl hs hcell =>
    rw [hm] at hm'; cases hm'
    exact ⟨rfl, ho, hl, hs, hcell⟩

theorem ClosesWell.succ_of_ne (h : ClosesWell text s.ip) (hc : text[s.ip]? = some c) (hne : c ≠ ']') :
    ClosesWell text (s.ip + 1) :=
  h.succ fun hc' => absurd (Option.some.inj (hc.symm.trans hc')) hne

theorem Tracks.perform_running (h : Tracks strategy text s) (hm : s.mode = .running)
    (hc : text[s.ip]? = some c) (ha : Obeys strategy text s c a) :
    Tracks strategy text (s.perform a) := by
  have hlt : s.ip < text.length := (List.getElem?_eq_some_iff.mp hc).1
  have hloops := h.loops_eq hm
  cases ha with
  | plain ho hcl hp =>
    obtain ⟨h1, h2, h3⟩ := perform_plain hp
    refine ⟨by rw [h1]; exact hlt, by rw [h1]; exact h.closesWell.succ_of_ne hc hcl, .running (h3.trans hm) ?_⟩
    rw [h1, h2, openAt_succ_plain hc ho hcl, hloops]
  | enter =>
    refine ⟨hlt, h.closesWell.succ_of_ne hc (by decide), .running hm ?_⟩
    show s.ip :: s.loops = openAt text (s.ip + 1)
    rw [openAt_succ_open hc, hloops]
  | jump _ _ hp =>
    have hpair := pair_of_partner?_open hc hp
    refine ⟨hpair.lt_length, h.closesWell.pair hpair, .running hm ?_⟩
    show s.loops = openAt text (_ + 1)
    rw [hpair.openAt_succ, hloops]
  | startSkip hcell hs =>
    refine ⟨hlt, h.closesWell.succ_of_ne hc (by decide), .skipping ?_ ?_ hloops hs hcell⟩
    · show Mode.skipping s.ip 1 = .skipping s.ip (depthIn text s.ip (s.ip + 1))
      rw [depthIn_self_succ hc]
    · show s.ip ∈ openAt text (s.ip + 1)
      rw [openAt_succ_open hc]; exact List.mem_cons_self ..
  | @back start rest _ hl =>
    have hw : (start :: rest) <:+ openAt text s.ip := ⟨[], hl.symm.trans hloops⟩
    obtain ⟨hst, ho, hr, -⟩ := openAt_suffix hw
    refine ⟨hst.trans hlt, h.closesWell.mono hst, .running hm ?_⟩
    show s.loops = openAt text (start + 1)
    rw [openAt_succ_open ho, hr, hl]
  | exit _ hl =>
    refine ⟨hlt, h.closesWell.succ fun _ => by rw [← hloops, hl]; simp, .running hm ?_⟩
    show s.loops.tail = openAt text (s.ip + 1)
    rw [openAt_succ_close hc, hloops]

theorem Tracks.perform_skipping {o d : Nat} (h : Tracks strategy text s) (hm : s.mode = .skipping o d)
    (hc : text[s.ip]? = some c) (ha : Passes o d c a) : Tracks strategy text (s.perform a) := by
  have hlt : s.ip < text.length := (List.getElem?_eq_some_iff.mp hc).1
  obtain ⟨rfl, ho, hl, hs, hcell⟩ := h.skipping_inv hm
  cases ha with
  | opening =>
    simp only [State.perform, hm, ← depthIn_succ_open hc ho]
    refine ⟨hlt, h.closesWell.succ_of_ne hc (by decide), .skipping rfl ?_ hl hs hcell⟩
    show o ∈ openAt text (s.ip + 1)
    rw [openAt_succ_open hc]; exact List.mem_cons_of_mem _ ho
  | closing hd =>
    simp only [State.perform, hm, ← depthIn_succ_close hc]
    exact ⟨hlt, h.closesWell.succ fun _ => List.ne_nil_of_mem ho,
      .skipping rfl (mem_openAt_succ_close hc ho hd) hl hs hcell⟩
  | plain hne hcl =>
    simp only [State.perform, hm, ← depthIn_succ_plain hc hne hcl]
    refine ⟨hlt, h.closesWell.succ_of_ne hc hcl, .skipping rfl ?_ hl hs hcell⟩
    show o ∈ openAt text (s.ip + 1)
    rw [openAt_succ_plain hc hne hcl]; exact ho
  | last hd =>
    have hpair := pair_of_depthIn_eq_one hc ho hd
    refine ⟨hlt, h.closesWell.succ fun _ => List.ne_nil_of_mem ho, .running rfl ?_⟩
    show s.loops = openAt text (s.ip + 1)
    rw [hpair.openAt_succ, hl]

/-- **One step.** What a character does to the loops is what it does to the stack of the text. -/
theorem Tracks.perform (h : Tracks strategy text s) (hc : text[s.ip]? = some c)
    (ha : s.action (Code.ofList strategy text) c = .ok a) : Tracks strategy text (s.perform a) := by
  cases hm : s.mode with
  | running => exact h.perform_running hm hc (obeys_of_action hm ha)
  | skipping o d => exact h.perform_skipping hm hc (passes_of_action hm ha)

theorem Tracks.reaches {n : Nat} {t : State} (h : Tracks strategy text s)
    (hr : Reaches (Code.ofList strategy text) n s t) : Tracks strategy text t :=
  hr.invariant (fun _ _ _ hs hc ha => hs.perform ((getElem?_text_ofList ..).symm.trans hc) ha) h

theorem Tracks.pair_of_loops {start : Nat} {rest : List Nat} (h : Tracks strategy text s)
    (hm : s.mode = .running) (hl : s.loops = start :: rest) (hc : text[s.ip]? = some ']') :
    Pair text start s.ip :=
  pair_of_top hc (by rw [← h.loops_eq hm, hl])

end

/-! ## The tape and the input -/

structure Tape.Fits (w : CellWidth) (t : Tape) : Prop where
  width : t.width = w
  current : t.current ≤ w.mask
  left : ∀ v ∈ t.left, v ≤ w.mask
  right : ∀ v ∈ t.right, v ≤ w.mask

namespace Tape.Fits
variable {w : CellWidth} {t : Tape}

theorem new (cells : Nat) (w : CellWidth) : (Tape.new cells w).Fits w :=
  ⟨rfl, Nat.zero_le _, by simp [Tape.new], by simp [Tape.new]⟩

theorem write (h : t.Fits w) (v : Nat) : ({ t with current := t.width.reduce v } : Tape).Fits w :=
  ⟨h.width, by rw [h.width]; exact w.reduce_le_mask v, h.left, h.right⟩

theorem moveRight (h : t.Fits w) : t.moveRight.Fits w := by
  have hleft : ∀ v ∈ t.current :: t.left, v ≤ w.mask := List.forall_mem_cons.mpr ⟨h.current, h.left⟩
  unfold Tape.moveRight
  split
  · rename_i hr
    exact ⟨h.width, Nat.zero_le _, hleft, h.right⟩
  · rename_i v right hr
    have hright := h.right
    rw [hr] at hright
    exact ⟨h.width, (List.forall_mem_cons.mp hright).1, hleft, (List.forall_mem_cons.mp hright).2⟩

theorem moveLeft (h : t.Fits w) : t.moveLeft.Fits w := by
  have hright : ∀ v ∈ t.current :: t.right, v ≤ w.mask := List.forall_mem_cons.mpr ⟨h.current, h.right⟩
  unfold Tape.moveLeft
  split
  · rename_i hl
    exact ⟨h.width, Nat.zero_le _, h.left, hright⟩
  · rename_i v left hl
    have hleft := h.left
    rw [hl] at hleft
    exact ⟨h.width, (List.forall_mem_cons.mp hleft).1, (List.forall_mem_cons.mp hleft).2, hright⟩

theorem toList_le (h : t.Fits w) : ∀ v ∈ t.toList, v ≤ w.mask := by
  intro v hv
  simp only [Tape.toList, List.mem_append, List.mem_reverse, List.mem_cons, List.mem_replicate] at hv
  rcases hv with hv | rfl | hv | ⟨-, rfl⟩
  · exact h.left v hv
  · exact h.current
  · exact h.right v hv
  · exact Nat.zero_le _

end Tape.Fits

theorem fits_perform {w : CellWidth} {s : State} (h : s.tape.Fits w) (a : Action) :
    (s.perform a).tape.Fits w := by
  cases a with
  | moveRight => exact h.moveRight
  | moveLeft => exact h.moveLeft
  | increment => exact h.write _
  | decrement => exact h.write _
  | read c => exact h.write _
  | skip d =>
    simp only [State.perform]
    split <;> exact h
  | _ => exact h

theorem input_perform_suffix (s : State) (a : Action) : (s.perform a).input <:+ s.input := by
  cases a with
  | read c => exact List.tail_suffix _
  | skip d =>
    simp only [State.perform]
    split <;> exact List.suffix_refl _
  | _ => exact List.suffix_refl _

/-! ## All of it -/

structure Engine.Invariant (e : Engine) (program input : String) (s : State) : Prop where
  ip_le : s.ip ≤ program.length
  cursor_le : ∃ cursor, cursor ≤ input.length ∧ s.input = input.toList.drop cursor
  pointer_lt : s.tape.pointer < s.tape.toList.length
  cell_le : ∀ v ∈ s.tape.toList, v ≤ e.cellWidth.mask
  running : s.mode = .running →
    unmatchedPlaces .closing (program.toList.take s.ip) = [] ∧
      s.loops.reverse = unmatchedPlaces .opening (program.toList.take s.ip)
  skipping : ∀ origin depth, s.mode = .skipping origin depth →
    e.loopStrategy = .scan ∧ program.toList[origin]? = some '[' ∧ origin < s.ip ∧
      s.tape.current = 0 ∧
      s.loops.reverse = unmatchedPlaces .opening (program.toList.take origin) ∧ 1 ≤ depth ∧
      depth + ((program.toList.take s.ip).drop (origin + 1)).count ']' =
        1 + ((program.toList.take s.ip).drop (origin + 1)).count '['

/-- What an action takes for given: the place it goes to is in the text, the loop it leaves is
there, so is the character it reads, and a depth that is counted does not run out. -/
def Action.Available (text : List Char) (s : State) : Action → Prop
  | jumpForward close => s.ip < close ∧ close < text.length
  | jumpBack start => s.loops.head? = some start ∧ start < s.ip
  | exitLoop => s.loops ≠ []
  | read c => s.input.head? = some c
  | skip depth => 0 < depth
  | _ => True

theorem Tracks.depth_eq {strategy : LoopStrategy} {text : List Char} {s : State} {o d : Nat}
    (h : Tracks strategy text s) (hm : s.mode = .skipping o d) :
    d + ((text.take s.ip).drop (o + 1)).count ']' = 1 + ((text.take s.ip).drop (o + 1)).count '[' := by
  obtain ⟨rfl, ho, -⟩ := h.skipping_inv hm
  exact depthIn_add_count h.ip_le ho

theorem Tracks.available {strategy : LoopStrategy} {text : List Char} {s : State} {c : Char} {a : Action}
    (h : Tracks strategy text s) (hm : s.mode = .running) (hc : text[s.ip]? = some c)
    (ha : Obeys strategy text s c a) : a.Available text s := by
  cases ha with
  | plain _ _ hp => cases a <;> first | exact hp | exact trivial | cases hp
  | jump _ _ hp =>
    have hpair := pair_of_partner?_open hc hp
    exact ⟨hpair.lt, hpair.lt_length⟩
  | back _ hl => exact ⟨by rw [hl]; rfl, (h.pair_of_loops hm hl hc).lt⟩
  | exit _ hl => simp [Action.Available, hl]
  | _ => exact trivial

namespace Engine
variable {e : Engine} {program input : String} {n : Nat} {s : State}

theorem tracks_of_reaches (h : Reaches (e.code program) n (e.initial input) s) :
    Tracks e.loopStrategy program.toList s :=
  (tracks_initial ..).reaches h

theorem fits_of_reaches (h : Reaches (e.code program) n (e.initial input) s) :
    s.tape.Fits e.cellWidth :=
  h.invariant (P := fun s => s.tape.Fits e.cellWidth) (fun _ _ a hs _ _ => fits_perform hs a)
    (Tape.Fits.new ..)

theorem input_suffix_of_reaches (h : Reaches (e.code program) n (e.initial input) s) :
    s.input <:+ input.toList :=
  h.invariant (P := fun s => s.input <:+ input.toList)
    (fun s _ a hs _ _ => (input_perform_suffix s a).trans hs) (List.suffix_refl _)

theorem invariant_of_reaches (h : Reaches (e.code program) n (e.initial input) s) :
    e.Invariant program input s := by
  have ht := tracks_of_reaches h
  have hf := fits_of_reaches h
  refine ⟨ht.ip_le, ?_, ?_, hf.toList_le, fun hm => ?_, fun o d hm => ?_⟩
  · obtain ⟨done, hd⟩ := input_suffix_of_reaches h
    refine ⟨done.length, ?_, ?_⟩
    · rw [← String.length_toList, ← hd, List.length_append]; omega
    · rw [← hd, List.drop_left]
  · rw [Tape.length_toList]; exact s.tape.pointer_lt_length
  · rw [unmatchedPlaces_closing_take_eq_nil_iff, unmatchedPlaces_opening, List.length_take,
      Nat.min_eq_left ht.ip_le, openAt_take (Nat.le_refl _), ht.loops_eq hm]
    exact ⟨ht.closesWell, rfl⟩
  · obtain ⟨hd, hmem, hl, hs, hcell⟩ := ht.skipping_inv hm
    have hlt := lt_of_mem_openAt hmem
    have ho := getElem?_of_mem_openAt hmem
    have hle : o ≤ program.toList.length := hlt.le.trans ht.ip_le
    refine ⟨hs, ho, hlt, hcell, ?_, by rw [hd]; exact depthIn_pos hmem, ht.depth_eq hm⟩
    rw [unmatchedPlaces_opening, List.length_take, Nat.min_eq_left hle, openAt_take (Nat.le_refl _), hl]

end Engine

/-- **The invariant of a run.** It holds at the head of every step, whatever may end the run from
outside and whatever records it. A closing bracket that goes back goes to its partner, and no
action asks for what is not there. -/
theorem Engine.invariant_of_progress {e : Engine} {n : Nat} {given : Controls} {sink : Option Sink}
    {program input : String} {run : Run}
    (h : e.progress n given sink program input = .running run) :
    e.Invariant program input run.state ∧
      ∀ c a, program.toList[run.state.ip]? = some c →
        run.state.action (e.code program) c = .ok a →
          a.Available program.toList run.state ∧
            ∀ start, a = .jumpBack start →
              (Brackets.ofList program.toList).partner? run.state.ip = some start := by
  have hr := (Engine.reaches_of_progress h).1
  refine ⟨Engine.invariant_of_reaches hr, fun c a hc ha => ?_⟩
  have ht := Engine.tracks_of_reaches hr
  cases hm : run.state.mode with
  | running =>
    have ho := obeys_of_action hm ha
    refine ⟨ht.available hm hc ho, ?_⟩
    rintro start rfl
    cases ho with
    | plain _ _ hp => cases hp
    | back _ hl => exact (partner?_of_pair (ht.pair_of_loops hm hl hc)).2
  | skipping o d =>
    obtain ⟨rfl, ho, -⟩ := ht.skipping_inv hm
    have hpos := depthIn_pos ho
    cases passes_of_action hm ha with
    | opening => exact ⟨Nat.succ_pos _, fun _ h => nomatch h⟩
    | closing hd =>
      refine ⟨?_, fun _ h => nomatch h⟩
      show 0 < depthIn program.toList o run.state.ip - 1
      omega
    | plain => exact ⟨hpos, fun _ h => nomatch h⟩
    | last => exact ⟨trivial, fun _ h => nomatch h⟩

theorem Engine.invariant_in_skipped_loop :
    ∃ run, standard.progress 5 Controls.none none "+[>[[]" "" = .running run ∧
      run.state.mode = .skipping 3 2 ∧ run.state.loops = [1] ∧
      standard.Invariant "+[>[[]" "" run.state := by
  obtain ⟨run, h, hm, hl⟩ : ∃ run, standard.progress 5 Controls.none none "+[>[[]" "" = .running run ∧
      run.state.mode = .skipping 3 2 ∧ run.state.loops = [1] := ⟨_, rfl, rfl, rfl⟩
  exact ⟨run, h, hm, hl, (Engine.invariant_of_progress h).1⟩

end Brainfuck
