import Brainfuck.Proofs.Control
import Brainfuck.Proofs.Returns
import Mathlib.Algebra.GroupWithZero.Nat

/-!
# Two ways to leave out a loop

A machine that passes over a loop character by character comes out behind the partner
of the opening bracket, where a machine with a table goes at once (`scan_jump`). So the two
come to the same, and they differ in the number of steps alone: for each loop that is left
out the first takes as many more as the partner is further on (`halts_scan_of_jumpTable`).
-/

namespace Brainfuck

section
variable {text : List Char} {s : State} {c : Char} {o : Nat}

/-! ## Passing over characters -/

/-- The state `s`, had it come to place `k` passing over the loop at `o`. -/
def State.passing (s : State) (text : List Char) (o k : Nat) : State :=
  { s with ip := k, mode := .skipping o (depthIn text o k) }

theorem passing_step {strategy : LoopStrategy} {k : Nat} (hc : text[k]? = some c)
    (ho : o ∈ openAt text k) (ho' : o ∈ openAt text (k + 1)) :
    Reaches (Code.ofList strategy text) 1 (s.passing text o k) (s.passing text o (k + 1)) :=
  .single ((getElem?_text_ofList ..).trans hc)
    ((action_skipping rfl).trans (congrArg Except.ok (skipAction_in_loop hc ho ho')))

/-- **Passing over.** As long as the loop at `o` waits for its end, the machine moves on through
it and counts. -/
theorem passing_reaches (strategy : LoopStrategy) {k : Nat} :
    ∀ {n : Nat}, k + n ≤ text.length → (∀ m, k ≤ m → m ≤ k + n → o ∈ openAt text m) →
      Reaches (Code.ofList strategy text) n (s.passing text o k) (s.passing text o (k + n)) := by
  intro n
  induction n with
  | zero => intro _ _; exact .refl _
  | succ n ih =>
    intro hlen hin
    have hc : text[k + n]? = some text[k + n] := List.getElem?_eq_getElem hlen
    have hrest := ih (Nat.le_of_succ_le hlen) fun m h1 h2 => hin m h1 (Nat.le_succ_of_le h2)
    exact hrest.trans (passing_step hc (hin _ (Nat.le_add_right ..) (Nat.le_succ _))
      (hin _ (Nat.le_add_right k (n + 1)) (Nat.le_refl _)))

theorem action_open_zero (hm : s.mode = .running) (hcell : s.tape.current = 0) :
    s.action (Code.ofList .scan text) '[' = .ok .startSkip := by
  rw [action_running hm rfl]
  simp [State.instructionAction, State.openAction, hcell, Code.ofList]

theorem startSkip_reaches (hm : s.mode = .running) (hcell : s.tape.current = 0)
    (ho : text[s.ip]? = some '[') :
    Reaches (Code.ofList .scan text) 1 s (s.passing text s.ip (s.ip + 1)) := by
  have hs : s.passing text s.ip (s.ip + 1) = s.perform .startSkip := by
    simp only [State.passing, State.perform, depthIn_self_succ ho]
  rw [hs]
  exact .single ((getElem?_text_ofList ..).trans ho) (action_open_zero hm hcell)

theorem endSkip_reaches {close : Nat} (strategy : LoopStrategy) (hm : s.mode = .running)
    (hp : Pair text o close) :
    Reaches (Code.ofList strategy text) 1 (s.passing text o close) { s with ip := close + 1 } := by
  have hs : { s with ip := close + 1 } = (s.passing text o close).perform (.endSkip o) := by
    simp only [State.passing, State.perform, hm]
  have ha : State.skipAction o (depthIn text o close) ']' = .endSkip o := by
    rw [hp.depthIn_eq_one]; rfl
  rw [hs]
  exact .single ((getElem?_text_ofList ..).trans hp.closes)
    ((action_skipping rfl).trans (congrArg Except.ok ha))

/-- **Leaving out a loop.** Character by character the machine comes to where the table leads. -/
theorem scan_jump {close : Nat} (hm : s.mode = .running) (hcell : s.tape.current = 0)
    (hp : Pair text s.ip close) :
    Reaches (Code.ofList .scan text) (close - s.ip + 1) s (s.perform (.jumpForward close)) := by
  obtain ⟨n, rfl⟩ : ∃ n, close = s.ip + 1 + n := Nat.exists_eq_add_of_le hp.lt
  have hin : ∀ m, s.ip + 1 ≤ m → m ≤ s.ip + 1 + n → s.ip ∈ openAt text m := fun m h1 h2 =>
    (hp.suffix h1 h2).subset (List.mem_cons_self ..)
  have hall := ((startSkip_reaches hm hcell hp.opens).trans
    (passing_reaches .scan hp.lt_length.le hin)).trans (endSkip_reaches .scan hm hp)
  rwa [show 1 + n + 1 = s.ip + 1 + n - s.ip + 1 by omega] at hall

theorem scan_no_partner (hm : s.mode = .running) (hcell : s.tape.current = 0)
    (ho : text[s.ip]? = some '[') (hno : (Brackets.ofList text).partner? s.ip = none) :
    Halts (Code.ofList .scan text) s (text.length - s.ip)
      (.error { place := s.ip, bracket := .opening }) := by
  have hlt : s.ip < text.length := (List.getElem?_eq_some_iff.mp ho).1
  obtain ⟨n, hn⟩ : ∃ n, text.length = s.ip + 1 + n := Nat.exists_eq_add_of_le hlt
  have hin : ∀ m, s.ip + 1 ≤ m → m ≤ s.ip + 1 + n → s.ip ∈ openAt text m := fun m h1 _ =>
    mem_openAt_of_no_pair ho (not_pair_of_partner?_eq_none hno) h1
  have hend : (Code.ofList .scan text).text[(s.passing text s.ip (s.ip + 1 + n)).ip]? = none := by
    rw [getElem?_text_ofList, List.getElem?_eq_none_iff]
    exact hn.le
  have hall := ((startSkip_reaches hm hcell ho).trans (passing_reaches .scan hn.ge hin)).halts
    (.finish hend rfl)
  rwa [show 0 + (1 + n) = text.length - s.ip by omega] at hall

/-! ## The two machines side by side -/

theorem action_eq_of_ne (strategy strategy' : LoopStrategy) (h : c = '[' → s.tape.current ≠ 0) :
    s.action (Code.ofList strategy text) c = s.action (Code.ofList strategy' text) c := by
  cases hm : s.mode with
  | skipping o d => rw [action_skipping hm, action_skipping hm]
  | running =>
    simp only [State.action, hm]
    cases hi : Instruction.ofChar? c with
    | none => rfl
    | some i =>
      cases i with
      | openLoop =>
        have hcell := h (Instruction.ofChar?_eq_some_iff.mp hi)
        simp only [State.instructionAction, State.openAction, if_pos hcell]
      | _ => rfl

/-- The loops that are left out at once in `n` steps: the places of their brackets, in the order
in which they come. -/
def forwardSkips (code : Code) : Nat → State → List (Nat × Nat)
  | 0, _ => []
  | n + 1, s =>
    match code.text[s.ip]? with
    | none => []
    | some c =>
      match s.action code c with
      | .error _ => []
      | .ok (.jumpForward close) => (s.ip, close) :: forwardSkips code n (s.perform (.jumpForward close))
      | .ok a => forwardSkips code n (s.perform a)

/-- How many characters are in the loops that are left out in `n` steps, their closing brackets
included. -/
def skippedLength (code : Code) (n : Nat) (s : State) : Nat :=
  ((forwardSkips code n s).map fun p => p.2 - p.1).sum

theorem skippedLength_jump {code : Code} {n close : Nat} (hc : code.text[s.ip]? = some c)
    (ha : s.action code c = .ok (.jumpForward close)) :
    skippedLength code (n + 1) s =
      close - s.ip + skippedLength code n (s.perform (.jumpForward close)) := by
  simp [skippedLength, forwardSkips, hc, ha]

theorem skippedLength_step {code : Code} {n : Nat} {a : Action} (hc : code.text[s.ip]? = some c)
    (ha : s.action code c = .ok a) (hne : ∀ close, a ≠ .jumpForward close) :
    skippedLength code (n + 1) s = skippedLength code n (s.perform a) := by
  unfold skippedLength
  rw [forwardSkips, hc]
  simp only [ha]

theorem partner?_of_mem_forwardSkips {n : Nat} {p : Nat × Nat} :
    ∀ {s : State}, p ∈ forwardSkips (Code.ofList .jumpTable text) n s →
      (Brackets.ofList text).partner? p.1 = some p.2 := by
  induction n with
  | zero => intro s h; cases h
  | succ n ih =>
    intro s h
    rw [forwardSkips] at h
    split at h
    · cases h
    · split at h
      · cases h
      · rename_i c hc close ha
        rcases List.mem_cons.mp h with rfl | h
        · cases hm : s.mode with
          | running =>
            cases obeys_of_action hm ha with
            | plain _ _ hp => cases hp
            | jump _ _ hp => exact hp
          | skipping o d => cases passes_of_action hm ha
        · exact ih h
      · exact ih h

theorem mode_perform_jumpTable {a : Action} (hm : s.mode = .running)
    (ha : Obeys .jumpTable text s c a) : (s.perform a).mode = .running := by
  cases ha with
  | plain _ _ hp => rw [(perform_plain hp).2.2, hm]
  | startSkip _ hs => cases hs
  | _ => exact hm

theorem scan_of_jumpTable_step {a : Action} (hm : s.mode = .running) (hc : text[s.ip]? = some c)
    (ha : s.action (Code.ofList .jumpTable text) c = .ok a) (n : Nat) :
    ∃ k, Reaches (Code.ofList .scan text) (k + 1) s (s.perform a) ∧ k + 1 ≤ text.length ∧
      skippedLength (Code.ofList .jumpTable text) (n + 1) s =
        k + skippedLength (Code.ofList .jumpTable text) n (s.perform a) := by
  have hc' := (getElem?_text_ofList .jumpTable text s.ip).trans hc
  have hlt : s.ip < text.length := (List.getElem?_eq_some_iff.mp hc).1
  have hsame : (c = '[' → s.tape.current ≠ 0) → (∀ close, a ≠ .jumpForward close) →
      ∃ k, Reaches (Code.ofList .scan text) (k + 1) s (s.perform a) ∧ k + 1 ≤ text.length ∧
        skippedLength (Code.ofList .jumpTable text) (n + 1) s =
          k + skippedLength (Code.ofList .jumpTable text) n (s.perform a) := by
    intro hcell hne
    refine ⟨0, .single ((getElem?_text_ofList ..).trans hc) ?_, by omega, ?_⟩
    · rw [action_eq_of_ne .scan .jumpTable hcell, ha]
    · rw [skippedLength_step hc' ha hne, Nat.zero_add]
  cases obeys_of_action hm ha with
  | plain ho _ hp => exact hsame (fun h => absurd h ho) (by rintro close rfl; cases hp)
  | enter hcell => exact hsame (fun _ => hcell) (fun _ h => nomatch h)
  | @jump close hcell _ hp =>
    have hpair := pair_of_partner?_open hc hp
    have := hpair.lt_length
    exact ⟨close - s.ip, scan_jump hm hcell hpair, by omega, skippedLength_jump hc' ha⟩
  | startSkip _ hs => cases hs
  | back => exact hsame (fun h => nomatch h) (fun _ h => nomatch h)
  | exit => exact hsame (fun h => nomatch h) (fun _ h => nomatch h)

/-- **From the table to the scan.** What the machine with a table comes to, the other comes to as
well, in no fewer steps and in at most a text's length of steps for each of its own. -/
theorem halts_scan_of_jumpTable {n : Nat} {r : Except Unmatched String}
    (h : Halts (Code.ofList .jumpTable text) s n r) (hm : s.mode = .running) :
    ∃ m, Halts (Code.ofList .scan text) s m r ∧ n ≤ m ∧ m ≤ n * text.length ∧
      ∀ o, r = .ok o → m = n + skippedLength (Code.ofList .jumpTable text) n s := by
  induction h with
  | finish hc hr =>
    rw [getElem?_text_ofList] at hc
    exact ⟨0, .finish ((getElem?_text_ofList ..).trans hc) hr, Nat.le_refl _, Nat.zero_le _, fun _ _ => rfl⟩
  | fail hc ha =>
    rw [getElem?_text_ofList] at hc
    have hlt := (List.getElem?_eq_some_iff.mp hc).1
    cases (fails_of_action ha).2 with
    | close hl =>
      have ha' := (action_eq_of_ne .scan .jumpTable fun h => absurd h (by decide)).trans ha
      exact ⟨1, .fail ((getElem?_text_ofList ..).trans hc) ha', Nat.le_refl _, by omega, fun _ h => nomatch h⟩
    | jump hcell _ hp =>
      exact ⟨_, scan_no_partner hm hcell hc hp, by omega, by omega, fun _ h => nomatch h⟩
  | @step n s r c a hc ha _ ih =>
    rw [getElem?_text_ofList] at hc
    obtain ⟨m, hh, hle, hub, hsum⟩ := ih (mode_perform_jumpTable hm (obeys_of_action hm ha))
    obtain ⟨k, hr, hk, hskip⟩ := scan_of_jumpTable_step hm hc ha n
    refine ⟨m + (k + 1), hr.halts hh, by omega, ?_, fun o ho => ?_⟩
    · rw [Nat.add_mul, Nat.one_mul]; omega
    · rw [hsum o ho, hskip]; omega

theorem simulation_scan (text : List Char) :
    Simulation (Code.ofList .jumpTable text) (Code.ofList .scan text)
      (fun s s' => s' = s ∧ s.mode = .running) id where
  step := by
    intro s s' c a ⟨hs, hm⟩ hc ha
    rw [getElem?_text_ofList] at hc
    obtain ⟨k, hr, -⟩ := scan_of_jumpTable_step hm hc ha 0
    rw [hs]
    exact ⟨k, _, hr, rfl, mode_perform_jumpTable hm (obeys_of_action hm ha)⟩
  fail := by
    intro s s' c u ⟨hs, hm⟩ hc ha
    -- the scan may fail only at the end of the text
    obtain ⟨m, hh, -⟩ := halts_scan_of_jumpTable (.fail hc ha) hm
    rw [hs]
    exact ⟨m, hh⟩
  finish := by
    intro s s' ⟨hs, _⟩ hc
    rw [getElem?_text_ofList] at hc
    rw [hs]
    exact ⟨0, .finish ((getElem?_text_ofList ..).trans hc) rfl⟩

theorem halts_jumpTable_of_scan {m : Nat} {r : Except Unmatched String}
    (h : Halts (Code.ofList .scan text) s m r) (hm : s.mode = .running) :
    ∃ n, Halts (Code.ofList .jumpTable text) s n r := by
  obtain ⟨n, r', hn, rfl⟩ := ((simulation_scan text).halts_iff ⟨rfl, hm⟩).mp ⟨m, h⟩
  exact ⟨n, hn⟩

end

/-! ## Executions -/

theorem Engine.returns_scan_iff (e : Engine) (program input : String) (result : Except RunError String) :
    (e.adapt .scan none).Returns program input result ↔
      (e.adapt .jumpTable none).Returns program input result := by
  rw [returns_unlimited_iff rfl, returns_unlimited_iff rfl]
  have hm : (e.initial input).mode = .running := rfl
  constructor
  · rintro ⟨n, r, h, rfl⟩
    obtain ⟨m, hh⟩ := halts_jumpTable_of_scan h hm
    exact ⟨m, r, hh, rfl⟩
  · rintro ⟨n, r, h, rfl⟩
    obtain ⟨m, hh, -⟩ := halts_scan_of_jumpTable h hm
    exact ⟨m, r, hh, rfl⟩

/-- **The strategies agree.** Within the same number of steps the table does whatever the scan does,
and the scan whatever the table does within a text's length of steps for each. When both succeed,
the scan has taken one more step for every character that the table left out. -/
theorem Engine.strategies_agree (e : Engine) (program input : String) :
    (∀ N result, (e.adapt .scan (some N)).Returns program input result →
      (∀ limit, result ≠ .error (.stepLimitExceeded limit)) →
      (e.adapt .jumpTable (some N)).Returns program input result) ∧
    (∀ N result, (e.adapt .jumpTable (some N)).Returns program input result →
      (∀ limit, result ≠ .error (.stepLimitExceeded limit)) →
      (e.adapt .scan (some (N * program.length))).Returns program input result) ∧
    (∀ L L' o o', (e.adapt .scan L).Returns program input (.ok o) →
      (e.adapt .jumpTable L').Returns program input (.ok o') →
      ∃ m n, (e.adapt .scan L).ReturnsAfter m program input (.ok o) ∧
        (e.adapt .jumpTable L').ReturnsAfter n program input (.ok o') ∧
        let skips := forwardSkips (Code.ofList .jumpTable program.toList) n (e.initial input)
        m = n + (skips.map fun p => p.2 - p.1).sum ∧
          ∀ p ∈ skips, (Brackets.ofList program.toList).partner? p.1 = some p.2) ∧
    (∀ result, (e.adapt .scan none).Returns program input result ↔
      (e.adapt .jumpTable none).Returns program input result) := by
  have hm : (e.initial input).mode = .running := rfl
  refine ⟨fun N result h hne => ?_, fun N result h hne => ?_, fun L L' o o' h h' => ?_,
    e.returns_scan_iff program input⟩
  · obtain ⟨m, r, hh, hle, rfl⟩ := (returns_limited_iff rfl hne).mp h
    obtain ⟨n, hn⟩ := halts_jumpTable_of_scan hh hm
    -- the scan has not taken fewer steps
    obtain ⟨m', hh', hnm, -⟩ := halts_scan_of_jumpTable hn hm
    obtain ⟨rfl, -⟩ := hh.deterministic hh'
    exact (returns_limited_iff rfl hne).mpr ⟨n, r, hn, hnm.trans hle, rfl⟩
  · obtain ⟨n, r, hh, hle, rfl⟩ := (returns_limited_iff rfl hne).mp h
    obtain ⟨m, hh', -, hub, -⟩ := halts_scan_of_jumpTable hh hm
    exact (returns_limited_iff rfl hne).mpr ⟨m, r, hh', hub.trans (Nat.mul_le_mul_right _ hle), rfl⟩
  · obtain ⟨m, hscan⟩ := h.exists_after
    obtain ⟨n, htable⟩ := h'.exists_after
    obtain ⟨m', hh, -, -, hsum⟩ := halts_scan_of_jumpTable (halts_of_returnsAfter_ok htable) hm
    obtain ⟨rfl, -⟩ := (halts_of_returnsAfter_ok hscan).deterministic hh
    exact ⟨m, n, hscan, htable, hsum o' rfl, fun p hp => partner?_of_mem_forwardSkips hp⟩

theorem Engine.strategies_agree_nested :
    (standard.adapt .scan (some 7)).Returns "[+[-]]+" "" (.ok "") ∧
      (standard.adapt .jumpTable (some 7)).Returns "[+[-]]+" "" (.ok "") ∧
      (standard.adapt .jumpTable (some 2)).Returns "[+[-]]+" "" (.ok "") ∧
      (standard.adapt .scan (some 14)).Returns "[+[-]]+" "" (.ok "") := by
  have hscan : (standard.adapt .scan (some 7)).Returns "[+[-]]+" "" (.ok "") := ⟨8, rfl⟩
  have htable : (standard.adapt .jumpTable (some 2)).Returns "[+[-]]+" "" (.ok "") := ⟨3, rfl⟩
  obtain ⟨h1, h2, -⟩ := Engine.strategies_agree standard "[+[-]]+" ""
  exact ⟨hscan, h1 7 _ hscan (fun _ h => nomatch h), htable, h2 2 _ htable (fun _ h => nomatch h)⟩

end Brainfuck
