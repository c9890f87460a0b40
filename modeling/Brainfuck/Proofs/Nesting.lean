import Brainfuck.Proofs.Control
import Brainfuck.Proofs.Structured.Block
import Mathlib.Order.Bounds.Basic

/-!
# Partners and what stands between them

A loop that waits at a place is as deep there as the brackets behind its own say
(`depthIn_add_count`), and it waits for as long as no more of them close than open
(`mem_openAt_of_count_le`). So the partner of an opening bracket is the closing one with a
balanced text between the two (`pair_iff_balanced`), and also the first place at which a machine
that passes over the loop counts down to zero (`pair_iff_isLeast`).
-/

namespace Brainfuck

def between (text : List Char) (i j : Nat) : List Char :=
  (text.take j).drop (i + 1)

/-- How deep in brackets the machine is when it has passed over a character; `0` when that ended
the loop. -/
def Action.depth : Action → Nat
  | skip depth => depth
  | _ => 0

/-- The depth that a machine counts when it has passed over the characters behind the bracket at `i`
up to the one at `k`. -/
def countedDepth (text : List Char) (i k : Nat) : Nat :=
  (between text i (k + 1)).foldl (fun depth c => (State.skipAction i depth c).depth) 1

section
variable {text : List Char} {i j k : Nat} {c : Char}

theorem between_self_succ (text : List Char) (i : Nat) : between text i (i + 1) = [] := by
  unfold between
  rw [List.drop_eq_nil_iff, List.length_take]
  omega

theorem between_succ (hc : text[k]? = some c) (hi : i < k) :
    between text i (k + 1) = between text i k ++ [c] := by
  have hlt : k < text.length := (List.getElem?_eq_some_iff.mp hc).1
  have hle : i + 1 ≤ (text.take k).length := by
    rw [List.length_take]; omega
  unfold between
  rw [List.take_add_one, hc, Option.toList_some, List.drop_append_of_le_length hle]

theorem take_between (text : List Char) (i j k : Nat) :
    (between text i j).take k = between text i (min (i + 1 + k) j) := by
  unfold between
  rw [List.take_drop, List.take_take]

/-! ## Depth by counting -/

theorem mem_openAt_of_le (h : i ∈ openAt text k) (hi : i < j) (hj : j ≤ k) : i ∈ openAt text j :=
  ((openAt_suffix (suffix_of_mem_openAt h)).2.2.2 j hi hj).subset (List.mem_cons_self ..)

theorem depthIn_add_count (hk : k ≤ text.length) (h : i ∈ openAt text k) :
    depthIn text i k + (between text i k).count ']' = 1 + (between text i k).count '[' := by
  have hlt := lt_of_mem_openAt h
  induction k, hlt using Nat.le_induction with
  | base => rw [between_self_succ, depthIn_self_succ (getElem?_of_mem_openAt h)]; rfl
  | succ k hik ih =>
    have hmem := mem_openAt_of_le h hik (Nat.le_succ k)
    have hpos := depthIn_pos hmem
    have ih := ih (Nat.le_of_succ_le hk) hmem
    have hc : text[k]? = some text[k] := List.getElem?_eq_getElem hk
    rw [between_succ hc hik, List.count_append, List.count_append]
    by_cases ho : text[k] = '['
    · rw [ho] at hc ⊢
      rw [depthIn_succ_open hc hmem]
      simp; omega
    · by_cases hcl : text[k] = ']'
      · rw [hcl] at hc ⊢
        rw [depthIn_succ_close hc]
        simp; omega
      · rw [depthIn_succ_plain hc ho hcl]
        simp [ho, hcl]; omega

theorem mem_openAt_of_count_le (ho : text[i]? = some '[') (hi : i < k) (hk : k ≤ text.length)
    (hcount : ∀ m, i < m → m ≤ k → (between text i m).count ']' ≤ (between text i m).count '[') :
    i ∈ openAt text k := by
  induction k, hi using Nat.le_induction with
  | base => rw [openAt_succ_open ho]; exact List.mem_cons_self ..
  | succ k hik ih =>
    have hmem := ih (Nat.le_of_succ_le hk) fun m hm hmk => hcount m hm (Nat.le_succ_of_le hmk)
    have hdepth := depthIn_add_count (Nat.le_of_succ_le hk) hmem
    have hlast := hcount (k + 1) (Nat.lt_succ_of_lt hik) (Nat.le_refl _)
    have hc : text[k]? = some text[k] := List.getElem?_eq_getElem hk
    rw [between_succ hc hik, List.count_append, List.count_append] at hlast
    by_cases hopen : text[k] = '['
    · rw [hopen] at hc
      rw [openAt_succ_open hc]
      exact List.mem_cons_of_mem _ hmem
    · by_cases hcl : text[k] = ']'
      · rw [hcl] at hc hlast
        apply mem_openAt_succ_close hc hmem
        simp at hlast
        omega
      · rw [openAt_succ_plain hc hopen hcl]
        exact hmem

/-- **Partners by balance.** -/
theorem pair_iff_balanced :
    Pair text i j ↔
      i < j ∧ text[i]? = some '[' ∧ text[j]? = some ']' ∧ Balanced (between text i j) := by
  constructor
  · intro h
    refine ⟨h.lt, h.opens, h.closes, ?_, fun k => ?_⟩
    · have hmem : i ∈ openAt text j := by rw [h.top]; exact List.mem_cons_self ..
      have hcount := depthIn_add_count h.lt_length.le hmem
      rw [h.depthIn_eq_one] at hcount
      omega
    · rw [take_between]
      have hij := h.lt
      have hm : i ∈ openAt text (min (i + 1 + k) j) :=
        (h.suffix (by omega) (Nat.min_le_right ..)).subset (List.mem_cons_self ..)
      have hcount := depthIn_add_count ((Nat.min_le_right ..).trans h.lt_length.le) hm
      have hpos := depthIn_pos hm
      omega
  · rintro ⟨hij, ho, hc, heq, hle⟩
    have hlen : j ≤ text.length := (List.getElem?_eq_some_iff.mp hc).1.le
    have hmem : i ∈ openAt text j := by
      apply mem_openAt_of_count_le ho hij hlen
      intro m hm hmj
      have := hle (m - (i + 1))
      rwa [take_between, show min (i + 1 + (m - (i + 1))) j = m by omega] at this
    apply pair_of_depthIn_eq_one hc hmem
    have hcount := depthIn_add_count hlen hmem
    omega

/-! ## Depth as the machine counts it -/

theorem countedDepth_succ (hc : text[k + 1]? = some c) (hi : i ≤ k) :
    countedDepth text i (k + 1) = (State.skipAction i (countedDepth text i k) c).depth := by
  unfold countedDepth
  rw [between_succ hc (Nat.lt_succ_of_le hi), List.foldl_append]
  rfl

theorem countedDepth_of_mem (hi : i ≤ k) (hk : k < text.length) (h : i ∈ openAt text (k + 1)) :
    countedDepth text i k = depthIn text i (k + 1) := by
  induction k, hi using Nat.le_induction with
  | base =>
    unfold countedDepth
    rw [between_self_succ, depthIn_self_succ (getElem?_of_mem_openAt h)]
    rfl
  | succ k hik ih =>
    have hmem := mem_openAt_of_le h (Nat.lt_succ_of_le hik) (Nat.le_succ _)
    have hc : text[k + 1]? = some text[k + 1] := List.getElem?_eq_getElem hk
    rw [countedDepth_succ hc hik, ih (Nat.lt_of_succ_lt hk) hmem, skipAction_in_loop hc hmem h]
    rfl

theorem Pair.countedDepth_eq_zero (h : Pair text i j) : countedDepth text i j = 0 := by
  obtain ⟨k, rfl⟩ : ∃ k, j = k + 1 := Nat.exists_eq_add_one_of_ne_zero (Nat.ne_zero_of_lt h.lt)
  have hik : i ≤ k := Nat.le_of_lt_succ h.lt
  have hmem : i ∈ openAt text (k + 1) := by rw [h.top]; exact List.mem_cons_self ..
  rw [countedDepth_succ h.closes hik, countedDepth_of_mem hik (Nat.lt_of_succ_lt h.lt_length) hmem,
    h.depthIn_eq_one]
  rfl

/-- **Partners by passing over.** -/
theorem pair_iff_isLeast :
    Pair text i j ↔
      text[i]? = some '[' ∧ IsLeast { k | i < k ∧ k < text.length ∧ countedDepth text i k = 0 } j := by
  constructor
  · intro h
    refine ⟨h.opens, ⟨h.lt, h.lt_length, h.countedDepth_eq_zero⟩, ?_⟩
    rintro k ⟨hik, hk, hzero⟩
    apply Nat.le_of_not_lt
    intro hkj
    have hmem : i ∈ openAt text (k + 1) :=
      (h.suffix (Nat.lt_succ_of_lt hik) hkj).subset (List.mem_cons_self ..)
    have hpos := depthIn_pos hmem
    rw [← countedDepth_of_mem hik.le hk hmem, hzero] at hpos
    exact Nat.lt_irrefl 0 hpos
  · rintro ⟨ho, ⟨hij, hj, hzero⟩, hleast⟩
    rcases mem_openAt_or_pair ho (Nat.lt_succ_of_lt hij) with hmem | ⟨k, hk, hp⟩
    · have hpos := depthIn_pos hmem
      rw [← countedDepth_of_mem hij.le hj hmem, hzero] at hpos
      exact absurd hpos (Nat.lt_irrefl 0)
    · have hjk : j ≤ k := hleast ⟨hp.lt, hp.lt_length, hp.countedDepth_eq_zero⟩
      have : k = j := by omega
      subst this
      exact hp

end

/-! ## The table -/

section
variable {text : List Char} {i j k l : Nat}

theorem Pair.not_crossed (h : Pair text i j) (h' : Pair text k l) (hik : i < k) (hkj : k < j) : l < j := by
  apply Nat.lt_of_not_le
  intro hjl
  -- the inner bracket would still wait at `j`, above the one that gets its partner there
  have hmem : k ∈ openAt text j := (h'.suffix hkj hjl).subset (List.mem_cons_self ..)
  rw [h.top] at hmem
  rcases List.mem_cons.mp hmem with rfl | hbelow
  · exact Nat.lt_irrefl k hik
  · exact Nat.lt_asymm hik (lt_of_mem_openAt hbelow)

theorem pair_of_partner?_of_lt (h : (Brackets.ofList text).partner? i = some j) (hij : i < j) :
    Pair text i j := by
  rcases partner?_eq_some_iff.mp h with hp | hp
  · exact hp
  · exact absurd hp.lt (Nat.lt_asymm hij)

theorem partner?_eq_some_and_lt_iff :
    ((Brackets.ofList text).partner? i = some j ∧ i < j) ↔ Pair text i j :=
  ⟨fun h => pair_of_partner?_of_lt h.1 h.2, fun h => ⟨(partner?_of_pair h).1, h.lt⟩⟩

theorem partner?_comm :
    (Brackets.ofList text).partner? i = some j ↔ (Brackets.ofList text).partner? j = some i := by
  rw [partner?_eq_some_iff, partner?_eq_some_iff, or_comm]

theorem bracket_of_partner? (h : (Brackets.ofList text).partner? i = some j) :
    text[i]? = some '[' ∨ text[i]? = some ']' := by
  rcases partner?_eq_some_iff.mp h with hp | hp
  · exact Or.inl hp.opens
  · exact Or.inr hp.closes

theorem unmatched_close_lt_open (hc : text[j]? = some ']') (hj : (Brackets.ofList text).partner? j = none)
    (ho : text[i]? = some '[') (hi : (Brackets.ofList text).partner? i = none) : j < i := by
  have hempty := (partner?_close_eq_none_iff hc).mp hj
  rcases Nat.lt_trichotomy j i with hlt | rfl | hgt
  · exact hlt
  · rw [hc] at ho; exact absurd ho (by decide)
  · have hmem := mem_openAt_of_no_pair ho (not_pair_of_partner?_eq_none hi) hgt
    rw [hempty] at hmem; cases hmem

end

/-- **The table is the matching of the brackets.** A bracket and a later one are partners exactly when
they open and close a balanced text, which is where a machine that passes over the loop counts down
to zero. Partners belong to each other, do not cross, and are brackets; and a closing bracket without
partner stands before every opening one without partner. -/
theorem Brackets.partner?_matches (text : List Char) :
    (∀ i j, ((ofList text).partner? i = some j ∧ i < j) ↔
      i < j ∧ text[i]? = some '[' ∧ text[j]? = some ']' ∧ Balanced (between text i j)) ∧
    (∀ i j, ((ofList text).partner? i = some j ∧ i < j) ↔
      text[i]? = some '[' ∧ IsLeast { k | i < k ∧ k < text.length ∧ countedDepth text i k = 0 } j) ∧
    (∀ i j, (ofList text).partner? i = some j ↔ (ofList text).partner? j = some i) ∧
    (∀ i j k l, (ofList text).partner? i = some j → (ofList text).partner? k = some l →
      i < k → k < j → k < l → l < j) ∧
    (∀ i, text[i]? ≠ some '[' → text[i]? ≠ some ']' → (ofList text).partner? i = none) ∧
    (∀ i j, text[j]? = some ']' → (ofList text).partner? j = none →
      text[i]? = some '[' → (ofList text).partner? i = none → j < i) := by
  refine ⟨fun i j => ?_, fun i j => ?_, fun i j => partner?_comm, ?_, ?_, ?_⟩
  · rw [partner?_eq_some_and_lt_iff, pair_iff_balanced]
  · rw [partner?_eq_some_and_lt_iff, pair_iff_isLeast]
  · intro i j k l hij hkl hik hkj hkl'
    exact (pair_of_partner?_of_lt hij (hik.trans hkj)).not_crossed (pair_of_partner?_of_lt hkl hkl') hik hkj
  · intro i ho hc
    apply Option.eq_none_iff_forall_ne_some.mpr
    intro j hj
    rcases bracket_of_partner? hj with h | h
    · exact ho h
    · exact hc h
  · intro i j hc hj ho hi
    exact unmatched_close_lt_open hc hj ho hi

theorem Brackets.partner?_matches_nested :
    let text := "][[]+][".toList
    (ofList text).partner? 1 = some 5 ∧ Balanced (between text 1 5) ∧
      IsLeast { k | 1 < k ∧ k < text.length ∧ countedDepth text 1 k = 0 } 5 ∧
      (ofList text).partner? 5 = some 1 ∧ 3 < 5 ∧ (ofList text).partner? 4 = none ∧ 0 < 6 := by
  intro text
  obtain ⟨hbal, hleast, hcomm, hcross, hnone, horder⟩ := partner?_matches text
  have houter : (ofList text).partner? 1 = some 5 := by decide
  have hinner : (ofList text).partner? 2 = some 3 := by decide
  refine ⟨houter, ((hbal 1 5).mp ⟨houter, by decide⟩).2.2.2, ((hleast 1 5).mp ⟨houter, by decide⟩).2,
    (hcomm 1 5).mp houter, ?_, hnone 4 (by decide) (by decide), ?_⟩
  · exact hcross 1 5 2 3 houter hinner (by decide) (by decide) (by decide)
  · exact horder 6 0 (by decide) (by decide) (by decide) (by decide)

end Brainfuck
