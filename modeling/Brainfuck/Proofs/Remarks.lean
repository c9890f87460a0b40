import Brainfuck.Proofs.Invariant
import Brainfuck.Proofs.Renumbering
import Brainfuck.Proofs.Returns

/-!
# Texts without their remarks

A text and the same text without its remarks come to the same. The place of an instruction
becomes the number of instructions before it (`rank`), and with it the places that wait for a
partner (`openAt_rank`) and the partners (`partner?_rank`). A remark leaves the renumbered
state as it is, and an instruction does the same in both texts; so the machine on the short
text follows the other in as many steps or fewer (`halts_filter`), and the other ends when
it does (`halts_of_filter`).
-/

namespace Brainfuck

def rank (text : List Char) (k : Nat) : Nat :=
  (text.take k).countP isInstruction

section
variable {text : List Char} {k : Nat} {c : Char}

/-! ## Places -/

theorem rank_succ_of_instruction (h : text[k]? = some c) (hc : isInstruction c = true) :
    rank text (k + 1) = rank text k + 1 := by
  unfold rank
  rw [List.take_add_one, h]
  simp [hc]

theorem rank_succ_of_remark (h : text[k]? = some c) (hc : isInstruction c = false) :
    rank text (k + 1) = rank text k := by
  unfold rank
  rw [List.take_add_one, h]
  simp [hc]

theorem getElem?_filter_rank (h : text[k]? = some c) (hc : isInstruction c = true) :
    (text.filter isInstruction)[rank text k]? = some c := by
  have hsplit : text.filter isInstruction =
      (text.take k).filter isInstruction ++ (text.drop k).filter isInstruction := by
    rw [← List.filter_append, List.take_append_drop]
  have hdrop : text.drop k = c :: text.drop (k + 1) := by
    rw [List.drop_eq_getElem?_toList_append, h]; rfl
  rw [hsplit, hdrop, rank, List.countP_eq_length_filter, List.filter_cons_of_pos hc,
    List.getElem?_append_right (Nat.le_refl _), Nat.sub_self]
  rfl

theorem getElem?_filter_rank_eq_none (h : text[k]? = none) :
    (text.filter isInstruction)[rank text k]? = none := by
  rw [List.getElem?_eq_none_iff] at h ⊢
  unfold rank
  rw [List.take_of_length_le h, List.countP_eq_length_filter]

/-! ## Brackets -/

theorem openAt_rank (text : List Char) (k : Nat) :
    openAt (text.filter isInstruction) (rank text k) = (openAt text k).map (rank text) := by
  induction k with
  | zero => rfl
  | succ k ih =>
    cases h : text[k]? with
    | none =>
      have hle : text.length ≤ k := List.getElem?_eq_none_iff.mp h
      have hrank : rank text (k + 1) = rank text k := by
        unfold rank
        rw [List.take_of_length_le hle, List.take_of_length_le (Nat.le_succ_of_le hle)]
      rw [hrank, ih, openAt_succ_of_getElem?_eq_none h]
    | some c =>
      by_cases hc : isInstruction c = true
      · rw [rank_succ_of_instruction h hc, openAt_succ (getElem?_filter_rank h hc), openAt_succ h, ih]
        split <;> simp
      · have hc' : isInstruction c = false := by simpa using hc
        obtain ⟨ho, hcl⟩ := ne_bracket_of_ofChar?_eq_none (Option.not_isSome_iff_eq_none.mp hc)
        rw [rank_succ_of_remark h hc', openAt_succ_plain h ho hcl, ih]

theorem rank_length (text : List Char) : rank text text.length = (text.filter isInstruction).length := by
  unfold rank
  rw [List.take_length, List.countP_eq_length_filter]

theorem partner?_rank (h : text[k]? = some '[') :
    (Brackets.ofList (text.filter isInstruction)).partner? (rank text k) =
      ((Brackets.ofList text).partner? k).map (rank text) := by
  refine partner?_renumber (openAt_rank text) ?_ (rank_length text) h
  intro b j hj
  exact getElem?_filter_rank hj (by cases b <;> rfl)

end

/-! ## Steps -/

section
variable {strategy : LoopStrategy} {text : List Char} {s : State} {c : Char} {a : Action}

theorem getElem?_leaves (ht : Tracks strategy text s) (hc : text[s.ip]? = some c)
    (hi : isInstruction c = true) (ha : s.action (Code.ofList strategy text) c = .ok a) :
    ∃ c', text[a.leaves s]? = some c' ∧ isInstruction c' = true := by
  cases hm : s.mode with
  | running =>
    cases obeys_of_action hm ha with
    | plain _ _ hp => cases a <;> first | exact ⟨c, hc, hi⟩ | cases hp
    | jump _ _ hp => exact ⟨']', (pair_of_partner?_open hc hp).closes, rfl⟩
    | back _ hl => exact ⟨'[', (ht.pair_of_loops hm hl hc).opens, rfl⟩
    | _ => exact ⟨_, hc, hi⟩
  | skipping o d => cases passes_of_action hm ha <;> exact ⟨_, hc, hi⟩

theorem perform_rank (ht : Tracks strategy text s) (hc : text[s.ip]? = some c)
    (hi : isInstruction c = true) (ha : s.action (Code.ofList strategy text) c = .ok a) :
    (s.perform a).renumber (rank text) = (s.renumber (rank text)).perform (a.renumber (rank text)) := by
  obtain ⟨c', hc', hi'⟩ := getElem?_leaves ht hc hi ha
  exact perform_renumber (rank_succ_of_instruction hc' hi')

theorem action_rank (strategy : LoopStrategy) (hc : text[s.ip]? = some c) :
    (s.renumber (rank text)).action (Code.ofList strategy (text.filter isInstruction)) c =
      renumberOutcome (rank text) (s.action (Code.ofList strategy text) c) := by
  apply action_renumber
  rintro rfl
  exact partner?_rank hc

theorem action_remark (strategy : LoopStrategy) (hc : text[s.ip]? = some c) (hi : isInstruction c = false) :
    ∃ a, s.action (Code.ofList strategy text) c = .ok a ∧ (s.perform a).ip = s.ip + 1 ∧
      (s.perform a).renumber (rank text) = s.renumber (rank text) := by
  have hnone : Instruction.ofChar? c = none := by simpa [isInstruction] using hi
  have hrank := rank_succ_of_remark hc hi
  cases hm : s.mode with
  | running =>
    refine ⟨.ignore, by simp [State.action, hm, hnone], rfl, ?_⟩
    simp [State.perform, State.renumber, hrank]
  | skipping o d =>
    refine ⟨.skip d, by simp [State.action, State.skipAction, hm, hnone], ?_, ?_⟩
    · simp [State.perform, hm]
    · simp [State.perform, State.renumber, Mode.renumber, hm, hrank]

/-! ## Runs -/

/-- **Without remarks.** What the machine comes to, it comes to without the remarks, in no more steps. -/
theorem halts_filter {n : Nat} {r : Except Unmatched String} (h : Halts (Code.ofList strategy text) s n r)
    (ht : Tracks strategy text s) :
    ∃ m, m ≤ n ∧ Halts (Code.ofList strategy (text.filter isInstruction)) (s.renumber (rank text)) m
      (r.mapError (·.renumber (rank text))) := by
  induction h with
  | finish hc hr =>
    rw [getElem?_text_ofList] at hc
    refine ⟨0, Nat.le_refl 0, .finish ?_ ?_⟩
    · rw [getElem?_text_ofList]
      exact getElem?_filter_rank_eq_none hc
    · rw [finish_renumber, hr]
  | @fail s c u hc ha =>
    rw [getElem?_text_ofList] at hc
    have hi : isInstruction c = true := by
      cases (fails_of_action ha).2 <;> rfl
    refine ⟨1, Nat.le_refl 1, .fail (c := c) ?_ ?_⟩
    · rw [getElem?_text_ofList]
      exact getElem?_filter_rank hc hi
    · rw [action_rank strategy hc, ha]; rfl
  | @step n s r c a hc ha _ ih =>
    rw [getElem?_text_ofList] at hc
    obtain ⟨m, hm, hh⟩ := ih (ht.perform hc ha)
    by_cases hi : isInstruction c = true
    · refine ⟨m + 1, Nat.succ_le_succ hm, .step (c := c) (a := a.renumber (rank text)) ?_ ?_ ?_⟩
      · rw [getElem?_text_ofList]
        exact getElem?_filter_rank hc hi
      · rw [action_rank strategy hc, ha]; rfl
      · rw [← perform_rank ht hc hi ha]
        exact hh
    · obtain ⟨a', ha', -, hsame⟩ := action_remark strategy hc (by simpa using hi)
      rw [ha] at ha'; cases ha'
      rw [hsame] at hh
      exact ⟨m, Nat.le_succ_of_le hm, hh⟩

theorem remarks_reach (strategy : LoopStrategy) (text : List Char) (s : State) :
    ∃ n t, Reaches (Code.ofList strategy text) n s t ∧ t.renumber (rank text) = s.renumber (rank text) ∧
      ∀ c, text[t.ip]? = some c → isInstruction c = true := by
  induction hd : text.length - s.ip generalizing s with
  | zero =>
    refine ⟨0, s, .refl s, rfl, ?_⟩
    intro c hc
    have := (List.getElem?_eq_some_iff.mp hc).1
    omega
  | succ d ih =>
    by_cases hi : ∀ c, text[s.ip]? = some c → isInstruction c = true
    · exact ⟨0, s, .refl s, rfl, hi⟩
    · simp only [not_forall] at hi
      obtain ⟨c, hc, hi⟩ := hi
      obtain ⟨a, ha, hip, hsame⟩ := action_remark strategy hc (by simpa using hi)
      obtain ⟨n, t, hr, hren, hend⟩ := ih (s.perform a) (by omega)
      exact ⟨n + 1, t, .step ((getElem?_text_ofList ..).trans hc) ha hr, hren.trans hsame, hend⟩

theorem halts_of_filter {m : Nat} {r' : Except Unmatched String} :
    ∀ {s : State}, Halts (Code.ofList strategy (text.filter isInstruction)) (s.renumber (rank text)) m r' →
      Tracks strategy text s → ∃ n r, Halts (Code.ofList strategy text) s n r := by
  induction m using Nat.strong_induction_on with
  | _ m ih =>
    intro s h ht
    -- a remark takes no step of the short text, so the remarks are passed before the induction is used
    obtain ⟨k, t, hr, hren, hend⟩ := remarks_reach strategy text s
    have htt := ht.reaches hr
    rw [← hren] at h
    cases hc : text[t.ip]? with
    | none => exact ⟨_, _, hr.halts (.finish ((getElem?_text_ofList ..).trans hc) rfl)⟩
    | some c =>
      have hi := hend c hc
      cases ha : t.action (Code.ofList strategy text) c with
      | error u => exact ⟨_, _, hr.halts (.fail ((getElem?_text_ofList ..).trans hc) ha)⟩
      | ok a =>
        have ha' := (action_rank strategy hc).trans (congrArg (renumberOutcome (rank text)) ha)
        obtain ⟨j, rfl, hj⟩ := h.step_inv ((getElem?_text_ofList ..).trans (getElem?_filter_rank hc hi)) ha'
        rw [← perform_rank htt hc hi ha] at hj
        obtain ⟨n, r, hh⟩ := ih j (Nat.lt_succ_self j) hj (htt.perform hc ha)
        exact ⟨_, r, hr.halts (.step ((getElem?_text_ofList ..).trans hc) ha hh)⟩

end

/-! ## Executions -/

/-- The first result stands for the second when the remarks of the source are left out: they are the
same, up to the place of a bracket. -/
inductive Corresponds (source : String) : Except RunError String → Except RunError String → Prop
  | ok (o : String) : Corresponds source (.ok o) (.ok o)
  | unmatched (place : Nat) (bracket : Bracket) :
      Corresponds source (.error (.unmatched { place, bracket }))
        (.error (.unmatched { place := rank source.toList place, bracket }))

theorem corresponds_mapError (source : String) (r : Except Unmatched String) :
    Corresponds source (r.mapError .unmatched)
      ((r.mapError (·.renumber (rank source.toList))).mapError .unmatched) := by
  cases r with
  | ok o => exact .ok o
  | error u => exact .unmatched u.place u.bracket

namespace Engine

section
variable {e : Engine} {source input : String} {n : Nat} {r : Except Unmatched String}

theorem code_instructionsOf (e : Engine) (source : String) :
    e.code (instructionsOf source) = Code.ofList e.loopStrategy (source.toList.filter isInstruction) := by
  simp [code, instructionsOf]

theorem halts_instructionsOf (h : Halts (e.code source) (e.initial input) n r) :
    ∃ m, m ≤ n ∧ Halts (e.code (instructionsOf source)) (e.initial input) m
      (r.mapError (·.renumber (rank source.toList))) := by
  rw [code_instructionsOf]
  exact halts_filter h (tracks_initial ..)

theorem halts_of_instructionsOf {r' : Except Unmatched String}
    (h : Halts (e.code (instructionsOf source)) (e.initial input) n r') :
    ∃ m r, Halts (e.code source) (e.initial input) m r ∧
      r' = r.mapError (·.renumber (rank source.toList)) := by
  have h' := h
  rw [code_instructionsOf] at h'
  obtain ⟨m, r, hh⟩ := halts_of_filter (s := e.initial input) h' (tracks_initial ..)
  obtain ⟨k, -, hk⟩ := halts_instructionsOf hh
  exact ⟨m, r, hh, (h.deterministic hk).2⟩

end

/-- **Remarks do not matter.** Whatever a source comes to within a number of steps, its instructions
come to within the same number; and whatever the instructions come to, the source comes to. The
place of a bracket is the number of instructions before it. -/
theorem instructionsOf_preserves (e : Engine) (strategy : LoopStrategy) (source input : String) :
    (∀ N result, (e.adapt strategy (some N)).Returns source input result →
      (∀ limit, result ≠ .error (.stepLimitExceeded limit)) →
      ∃ result', Corresponds source result result' ∧
        (e.adapt strategy (some N)).Returns (instructionsOf source) input result') ∧
    (∀ result', (e.adapt strategy none).Returns (instructionsOf source) input result' →
      ∃ result, Corresponds source result result' ∧
        (e.adapt strategy none).Returns source input result) := by
  constructor
  · intro N result h hne
    obtain ⟨n, r, hh, hn, rfl⟩ := (returns_limited_iff rfl hne).mp h
    obtain ⟨m, hm, hf⟩ := halts_instructionsOf hh
    refine ⟨_, corresponds_mapError source r, returns_iff.mpr (Or.inl ⟨m, _, hf, ?_, rfl⟩)⟩
    intro N' hN'
    cases hN'
    exact hm.trans hn
  · intro result' h
    obtain ⟨n, r', hh, rfl⟩ := (returns_unlimited_iff rfl).mp h
    obtain ⟨m, r, hs, rfl⟩ := halts_of_instructionsOf hh
    exact ⟨_, corresponds_mapError source r, (returns_unlimited_iff rfl).mpr ⟨m, r, hs, rfl⟩⟩

theorem instructionsOf_preserves_left_open :
    (standard.adapt .scan (some 10)).Returns "a+[ >[b-] " ""
        (.error (.unmatched { place := 2, bracket := .opening })) ∧
      (standard.adapt .scan (some 10)).Returns (instructionsOf "a+[ >[b-] ") ""
        (.error (.unmatched { place := 1, bracket := .opening })) := by
  have h : (standard.adapt .scan (some 10)).Returns "a+[ >[b-] " ""
    (.error (.unmatched { place := 2, bracket := .opening })) := ⟨11, rfl⟩
  obtain ⟨result', hcorr, hr⟩ :=
    (instructionsOf_preserves standard .scan "a+[ >[b-] " "").1 10 _ h (fun _ h => nomatch h)
  cases hcorr
  exact ⟨h, hr⟩

end Engine

end Brainfuck
