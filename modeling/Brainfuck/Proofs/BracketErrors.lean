import Brainfuck.Proofs.Invariant
import Brainfuck.Proofs.Strategies
import Mathlib.Order.Bounds.Basic

/-!
# Errors on brackets

A run that ends fails exactly when the text has a bracket without partner, and the text
alone decides on which: on the first closing bracket that has none, and only if there is
no such bracket on an opening one. No path through the text avoids it, because a machine that
obeys a character has entered the very loops that wait there (`Tracks`).
-/

namespace Brainfuck

section
variable {strategy : LoopStrategy} {text : List Char} {s : State}

def FindsZero (code : Code) (s : State) (i : Nat) : Prop :=
  ∃ n t, Reaches code n s t ∧ t.mode = .running ∧ t.ip = i ∧ t.tape.current = 0

/-- What a run may come to, told from the text and the places that were found with a zero cell. -/
inductive Verdict (text : List Char) (zero : Nat → Prop) : Except Unmatched String → Prop
  | success (o : String) (hw : ClosesWell text text.length) (hopen : openAt text text.length = []) :
      Verdict text zero (.ok o)
  | closing {j : Nat} (hc : text[j]? = some ']') (hw : ClosesWell text j) (hopen : openAt text j = []) :
      Verdict text zero (.error { place := j, bracket := .closing })
  | leftOut {i : Nat} (hw : ClosesWell text text.length) (hi : i ∈ openAt text text.length) (hz : zero i) :
      Verdict text zero (.error { place := i, bracket := .opening })
  | leftOpen {i : Nat} {rest : List Nat} (hw : ClosesWell text text.length)
      (hopen : openAt text text.length = i :: rest) :
      Verdict text zero (.error { place := i, bracket := .opening })

theorem findsZero_of_skipping {n o d : Nat} {t : State} (hm : s.mode = .running)
    (h : Reaches (Code.ofList strategy text) n s t) (ht : t.mode = .skipping o d) :
    FindsZero (Code.ofList strategy text) s o := by
  -- carried along the run: the state is reached, and the loop it passes over was met
  have key : (∃ k, Reaches (Code.ofList strategy text) k s t) ∧
      ∀ o d, t.mode = .skipping o d → FindsZero (Code.ofList strategy text) s o := by
    refine h.invariant (P := fun t => (∃ k, Reaches (Code.ofList strategy text) k s t) ∧
      ∀ o d, t.mode = .skipping o d → FindsZero (Code.ofList strategy text) s o) ?_
      ⟨⟨0, .refl s⟩, fun o d h => by rw [hm] at h; cases h⟩
    rintro u c a ⟨⟨k, hk⟩, hz⟩ hc ha
    refine ⟨⟨k + 1, hk.trans (.single hc ha)⟩, fun o d hu => ?_⟩
    cases hmu : u.mode with
    | running =>
      cases obeys_of_action hmu ha with
      | plain _ _ hp => rw [(perform_plain hp).2.2, hmu] at hu; cases hu
      | startSkip hcell => cases hu; exact ⟨k, u, hk, hmu, rfl, hcell⟩
      | _ => exact absurd (hmu.symm.trans hu) (by simp)
    | skipping o' d' =>
      have ho : o' = o := by
        cases passes_of_action hmu ha with
        | last => cases hu
        | _ =>
          simp only [State.perform, hmu] at hu
          injection hu
      exact hz o d' (by rw [hmu, ho])
  exact key.2 o d ht

theorem closesWell_of_waiting {i : Nat} (ho : text[i]? = some '[') (hw : ClosesWell text i)
    (hno : ∀ j, ¬ Pair text i j) (k : Nat) : ClosesWell text k := by
  intro j hj hc
  rcases Nat.lt_trichotomy j i with hlt | rfl | hgt
  · exact hw j hlt hc
  · rw [ho] at hc; exact absurd hc (by decide)
  · exact List.ne_nil_of_mem (mem_openAt_of_no_pair ho hno hgt)

/-- **What a run comes to.** -/
theorem verdict_of_halts {n : Nat} {r : Except Unmatched String}
    (hs : Tracks strategy text s) (hm : s.mode = .running)
    (h : Halts (Code.ofList strategy text) s n r) :
    Verdict text (FindsZero (Code.ofList strategy text) s) r := by
  obtain ⟨t, k, hr, hlast⟩ := h.exists_last
  have ht := hs.reaches hr
  rcases hlast with ⟨hc, hf, -⟩ | ⟨c, u, hc, ha, rfl, -⟩
  · -- the end of the text
    rw [getElem?_text_ofList, List.getElem?_eq_none_iff] at hc
    have hip : t.ip = text.length := Nat.le_antisymm ht.ip_le hc
    have hw := ht.closesWell
    rw [hip] at hw
    unfold State.finish at hf
    cases hmt : t.mode with
    | running =>
      have hl := ht.loops_eq hmt
      rw [hip] at hl
      rw [hmt] at hf
      cases hloops : t.loops with
      | nil =>
        simp only [hloops] at hf
        subst hf
        exact .success _ hw (hl.symm.trans hloops)
      | cons start rest =>
        simp only [hloops] at hf
        subst hf
        exact .leftOpen hw (hl.symm.trans hloops)
    | skipping o d =>
      obtain ⟨-, ho, -⟩ := ht.skipping_inv hmt
      rw [hip] at ho
      rw [hmt] at hf
      subst hf
      exact .leftOut hw ho (findsZero_of_skipping hm hr hmt)
  · -- a character that fails
    rw [getElem?_text_ofList] at hc
    obtain ⟨hmt, hfail⟩ := fails_of_action ha
    cases hfail with
    | close hl => exact .closing hc ht.closesWell ((ht.loops_eq hmt).symm.trans hl)
    | jump hcell _ hp =>
      exact .leftOut (closesWell_of_waiting hc ht.closesWell (not_pair_of_partner?_eq_none hp) _)
        ((partner?_open_eq_none_iff hc).mp hp) ⟨k, t, hr, hmt, rfl, hcell⟩

theorem halts_of_findsZero {i : Nat} (hi : i ∈ openAt text text.length)
    (hz : FindsZero (Code.ofList strategy text) s i) :
    ∃ n, Halts (Code.ofList strategy text) s n (.error { place := i, bracket := .opening }) := by
  obtain ⟨n, t, hr, hm, rfl, hcell⟩ := hz
  have ho := getElem?_of_mem_openAt hi
  have hp := (partner?_open_eq_none_iff ho).mpr hi
  cases strategy with
  | scan => exact ⟨_, hr.halts (scan_no_partner hm hcell ho hp)⟩
  | jumpTable =>
    have ha : t.action (Code.ofList .jumpTable text) '[' = .error { place := t.ip, bracket := .opening } := by
      rw [action_running hm rfl]
      simp [State.instructionAction, State.openAction, hcell, Code.ofList, hp]
    exact ⟨_, hr.halts (.fail ((getElem?_text_ofList ..).trans ho) ha)⟩

end

/-! ## The brackets without partner -/

theorem unmatchedPlaces_closing_eq_nil_iff {text : List Char} :
    unmatchedPlaces .closing text = [] ↔ ClosesWell text text.length := by
  have h : unmatchedPlaces .closing (text.take text.length) = [] ↔ ClosesWell text text.length :=
    unmatchedPlaces_closing_take_eq_nil_iff
  rwa [List.take_length] at h

theorem unmatchedPlaces_opening_eq_nil_iff {text : List Char} :
    unmatchedPlaces .opening text = [] ↔ openAt text text.length = [] := by
  rw [unmatchedPlaces_opening, List.reverse_eq_nil_iff]

theorem mem_unmatchedPlaces_opening {text : List Char} {i : Nat} :
    i ∈ unmatchedPlaces .opening text ↔ i ∈ openAt text text.length := by
  rw [unmatchedPlaces_opening, List.mem_reverse]

theorem head_unmatchedPlaces_closing {text : List Char} {j place : Nat} {rest : List Nat}
    (hc : text[j]? = some ']') (hw : ClosesWell text j) (hopen : openAt text j = [])
    (hp : unmatchedPlaces .closing text = place :: rest) : place = j := by
  have hmem : j ∈ place :: rest := by
    rw [← hp]; exact mem_unmatchedPlaces_closing.mpr ⟨hc, hopen⟩
  have hplace : place ∈ unmatchedPlaces .closing text := by rw [hp]; exact List.mem_cons_self ..
  obtain ⟨hc', hopen'⟩ := mem_unmatchedPlaces_closing.mp hplace
  have hsorted := unmatchedPlaces_pairwise .closing text
  rw [hp, List.pairwise_cons] at hsorted
  rcases List.mem_cons.mp hmem with rfl | hrest
  · rfl
  · exact absurd hopen' (hw place (hsorted.1 j hrest) hc')

namespace Verdict
variable {text : List Char} {zero : Nat → Prop} {r : Except Unmatched String}

theorem ok_iff (h : Verdict text zero r) :
    (∃ o, r = .ok o) ↔ unmatchedPlaces .opening text = [] ∧ unmatchedPlaces .closing text = [] := by
  rw [unmatchedPlaces_opening_eq_nil_iff, unmatchedPlaces_closing_eq_nil_iff]
  cases h with
  | success o hw hopen => exact iff_of_true ⟨o, rfl⟩ ⟨hopen, hw⟩
  | closing hc hw hopen =>
    have hlt := (List.getElem?_eq_some_iff.mp hc).1
    exact iff_of_false (fun ⟨_, h⟩ => nomatch h) fun ⟨_, h⟩ => h _ hlt hc hopen
  | leftOut hw hi => exact iff_of_false (fun ⟨_, h⟩ => nomatch h) fun ⟨h, _⟩ => List.ne_nil_of_mem hi h
  | leftOpen hw hopen =>
    refine iff_of_false (fun ⟨_, h⟩ => nomatch h) fun ⟨h, _⟩ => ?_
    rw [hopen] at h; cases h

theorem eq_of_closing (h : Verdict text zero r) {place : Nat} {rest : List Nat}
    (hp : unmatchedPlaces .closing text = place :: rest) :
    r = .error { place, bracket := .closing } := by
  have hbad : ¬ ClosesWell text text.length := by
    rw [← unmatchedPlaces_closing_eq_nil_iff, hp]; simp
  cases h with
  | success _ hw => exact absurd hw hbad
  | closing hc hw hopen => rw [head_unmatchedPlaces_closing hc hw hopen hp]
  | leftOut hw => exact absurd hw hbad
  | leftOpen hw => exact absurd hw hbad

/-- `hz` says that a bracket without partner that is met with a zero cell decides the run. -/
theorem eq_of_opening (h : Verdict text zero r)
    (hz : ∀ p, p ∈ openAt text text.length → zero p → r = .error { place := p, bracket := .opening })
    (hcl : unmatchedPlaces .closing text = []) (hop : unmatchedPlaces .opening text ≠ []) :
    (∃ place, IsLeast { p | p ∈ unmatchedPlaces .opening text ∧ zero p } place ∧
      r = .error { place, bracket := .opening }) ∨
    ((∀ p ∈ unmatchedPlaces .opening text, ¬ zero p) ∧
      ∃ place, (unmatchedPlaces .opening text).getLast? = some place ∧
        r = .error { place, bracket := .opening }) := by
  by_cases hex : ∃ p ∈ unmatchedPlaces .opening text, zero p
  · obtain ⟨p, hp, hzp⟩ := hex
    have hr := hz p (mem_unmatchedPlaces_opening.mp hp) hzp
    refine Or.inl ⟨p, ⟨⟨hp, hzp⟩, ?_⟩, hr⟩
    -- there is no other such bracket
    rintro q ⟨hq, hzq⟩
    have hr' := hz q (mem_unmatchedPlaces_opening.mp hq) hzq
    rw [hr] at hr'
    cases hr'
    exact Nat.le_refl _
  · have hno : ∀ p ∈ unmatchedPlaces .opening text, ¬ zero p := fun p hp hzp => hex ⟨p, hp, hzp⟩
    refine Or.inr ⟨hno, ?_⟩
    cases h with
    | success _ _ hopen => exact absurd (unmatchedPlaces_opening_eq_nil_iff.mpr hopen) hop
    | closing hc _ hopen =>
      rw [List.eq_nil_iff_forall_not_mem] at hcl
      exact absurd (mem_unmatchedPlaces_closing.mpr ⟨hc, hopen⟩) (hcl _)
    | leftOut _ hi hzi => exact absurd hzi (hno _ (mem_unmatchedPlaces_opening.mpr hi))
    | leftOpen _ hopen =>
      refine ⟨_, ?_, rfl⟩
      rw [unmatchedPlaces_opening, hopen, List.getLast?_reverse]; rfl

end Verdict

/-! ## Executions -/

def Engine.MeetsZero (e : Engine) (program input : String) (place : Nat) : Prop :=
  ∃ n run, e.progress n Controls.none none program input = .running run ∧
    run.state.mode = .running ∧ run.state.ip = place ∧ run.state.tape.current = 0

theorem Engine.meetsZero_iff {e : Engine} {program input : String} {place : Nat}
    (hmax : e.maxSteps = none) :
    e.MeetsZero program input place ↔ FindsZero (e.code program) (e.initial input) place := by
  constructor
  · rintro ⟨n, run, hp, hrest⟩
    exact ⟨n, run.state, (reaches_of_progress hp).1, hrest⟩
  · rintro ⟨n, t, hr, hrest⟩
    exact ⟨n, _, progress_of_reaches hmax hr, hrest⟩

/-- **Errors on brackets.** A run that ends succeeds exactly when every bracket has a partner. It
fails on the first closing bracket without partner if there is one. Otherwise it fails on the
first opening bracket without partner that was met with a zero cell, or, when none was, on the
last opening bracket without partner. -/
theorem Engine.bracket_errors {e : Engine} {strategy : LoopStrategy} {program input : String}
    {result : Except RunError String} (h : (e.adapt strategy none).Returns program input result) :
    ((∃ o, result = .ok o) ↔
      unmatchedPlaces .opening program.toList = [] ∧ unmatchedPlaces .closing program.toList = []) ∧
    (∀ place rest, unmatchedPlaces .closing program.toList = place :: rest →
      result = .error (.unmatched { place, bracket := .closing })) ∧
    (unmatchedPlaces .closing program.toList = [] → unmatchedPlaces .opening program.toList ≠ [] →
      (∃ place,
        IsLeast { p | p ∈ unmatchedPlaces .opening program.toList ∧
          (e.adapt strategy none).MeetsZero program input p } place ∧
        result = .error (.unmatched { place, bracket := .opening })) ∨
      ((∀ p ∈ unmatchedPlaces .opening program.toList,
          ¬ (e.adapt strategy none).MeetsZero program input p) ∧
        ∃ place, (unmatchedPlaces .opening program.toList).getLast? = some place ∧
          result = .error (.unmatched { place, bracket := .opening }))) := by
  obtain ⟨n, r, hh, rfl⟩ := (returns_unlimited_iff rfl).mp h
  have hv := verdict_of_halts (tracks_initial ..) rfl hh
  have hz : ∀ p, p ∈ openAt program.toList program.toList.length →
      FindsZero (Code.ofList strategy program.toList) (e.initial input) p →
        r = .error { place := p, bracket := .opening } := by
    intro p hp hzp
    obtain ⟨m, hm⟩ := halts_of_findsZero hp hzp
    exact (hh.deterministic hm).2
  refine ⟨?_, fun place rest hp => ?_, fun hcl hop => ?_⟩
  · rw [← hv.ok_iff]
    cases r <;> simp [Except.mapError]
  · rw [hv.eq_of_closing hp]; rfl
  · have hmeets : ∀ p, (e.adapt strategy none).MeetsZero program input p ↔
        FindsZero (Code.ofList strategy program.toList) (e.initial input) p := fun p => meetsZero_iff rfl
    simp only [hmeets]
    rcases hv.eq_of_opening hz hcl hop with ⟨place, hleast, rfl⟩ | ⟨hno, place, hlast, rfl⟩
    · exact Or.inl ⟨place, hleast, rfl⟩
    · exact Or.inr ⟨hno, place, hlast, rfl⟩

theorem Engine.bracket_errors_two_open :
    (standard.adapt .scan none).Returns "+[>[<[-]" "" (.error (.unmatched { place := 3, bracket := .opening })) ∧
      IsLeast { p | p ∈ unmatchedPlaces .opening "+[>[<[-]".toList ∧
        (standard.adapt .scan none).MeetsZero "+[>[<[-]" "" p } 3 := by
  have h : (standard.adapt .scan none).Returns "+[>[<[-]" ""
    (.error (.unmatched { place := 3, bracket := .opening })) := ⟨9, rfl⟩
  refine ⟨h, ?_⟩
  rcases (Engine.bracket_errors h).2.2 (by decide) (by decide) with ⟨place, hleast, hr⟩ | ⟨hno, -⟩
  · cases hr; exact hleast
  · exact absurd ⟨3, _, rfl, rfl, rfl, rfl⟩ (hno 3 (by decide))

end Brainfuck
