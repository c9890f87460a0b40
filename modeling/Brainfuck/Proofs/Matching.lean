import Brainfuck.Machine
import Mathlib.Data.List.Induction
import Mathlib.Data.List.Sort

/-!
# Partners of brackets

The opening brackets that wait for a partner form a stack. `openAt text k` is the
stack before place `k`, so it depends on the first `k` characters alone. A bracket
stays on the stack until the stack is back to what it was when the bracket came
(`openAt_suffix`). Two brackets are therefore partners exactly when the opening one
is on top of the stack at the closing one (`partner?_eq_some_iff`), an opening bracket
has no partner exactly when it still waits at the end, and a closing one when it finds
the stack empty.
-/

namespace Brainfuck

def bracketScan (text : List Char) : BracketScan :=
  text.foldl BracketScan.next BracketScan.start

/-- The places of the opening brackets before place `k` that wait for a partner there,
innermost first. -/
def openAt (text : List Char) (k : Nat) : List Nat :=
  (bracketScan (text.take k)).waiting

/-! ## The stack along a text -/

theorem bracketScan_snoc (text : List Char) (c : Char) :
    bracketScan (text ++ [c]) = (bracketScan text).next c := by
  unfold bracketScan
  rw [List.foldl_append]; rfl

theorem size_partners_next (s : BracketScan) (c : Char) :
    (s.next c).partners.size = s.partners.size + 1 := by
  unfold BracketScan.next
  split
  · simp
  · split <;> simp
  · simp

theorem size_partners_bracketScan (text : List Char) :
    (bracketScan text).partners.size = text.length := by
  induction text using List.reverseRecOn with
  | nil => rfl
  | append_singleton text c ih =>
    rw [bracketScan_snoc, size_partners_next, ih, List.length_append, List.length_singleton]

theorem waiting_next (s : BracketScan) (c : Char) :
    (s.next c).waiting =
      match Instruction.ofChar? c with
      | some .openLoop => s.partners.size :: s.waiting
      | some .closeLoop => s.waiting.tail
      | _ => s.waiting := by
  cases hi : Instruction.ofChar? c with
  | none => simp only [BracketScan.next, hi]
  | some i =>
    cases i with
    | closeLoop => cases hw : s.waiting <;> simp only [BracketScan.next, hi, hw, List.tail_nil, List.tail_cons]
    | _ => simp only [BracketScan.next, hi]

@[simp] theorem openAt_zero (text : List Char) : openAt text 0 = [] := rfl

theorem openAt_take {text : List Char} {k m : Nat} (h : k ≤ m) :
    openAt (text.take m) k = openAt text k := by
  unfold openAt
  rw [List.take_take, Nat.min_eq_left h]

theorem openAt_append {text : List Char} {k : Nat} (h : k ≤ text.length) (more : List Char) :
    openAt (text ++ more) k = openAt text k := by
  unfold openAt
  rw [List.take_append_of_le_length h]

theorem openAt_succ_of_getElem?_eq_none {text : List Char} {k : Nat} (h : text[k]? = none) :
    openAt text (k + 1) = openAt text k := by
  have hk : text.length ≤ k := List.getElem?_eq_none_iff.mp h
  unfold openAt
  rw [List.take_of_length_le hk, List.take_of_length_le (Nat.le_succ_of_le hk)]

theorem openAt_succ {text : List Char} {k : Nat} {c : Char} (h : text[k]? = some c) :
    openAt text (k + 1) =
      match Instruction.ofChar? c with
      | some .openLoop => k :: openAt text k
      | some .closeLoop => (openAt text k).tail
      | _ => openAt text k := by
  have hk : k < text.length := (List.getElem?_eq_some_iff.mp h).1
  have htake : text.take (k + 1) = text.take k ++ [c] := by
    rw [List.take_add_one, h]; rfl
  have hsize : (bracketScan (text.take k)).partners.size = k := by
    rw [size_partners_bracketScan, List.length_take, Nat.min_eq_left (Nat.le_of_lt hk)]
  unfold openAt
  rw [htake, bracketScan_snoc, waiting_next, hsize]

theorem openAt_succ_open {text : List Char} {k : Nat} (h : text[k]? = some '[') :
    openAt text (k + 1) = k :: openAt text k :=
  openAt_succ h

theorem openAt_succ_close {text : List Char} {k : Nat} (h : text[k]? = some ']') :
    openAt text (k + 1) = (openAt text k).tail :=
  openAt_succ h

theorem openAt_succ_plain {text : List Char} {k : Nat} {c : Char} (h : text[k]? = some c)
    (ho : c ≠ '[') (hc : c ≠ ']') : openAt text (k + 1) = openAt text k := by
  rw [openAt_succ h]
  split
  · rename_i hi; exact absurd (Instruction.ofChar?_eq_some_iff.mp hi) ho
  · rename_i hi; exact absurd (Instruction.ofChar?_eq_some_iff.mp hi) hc
  · rfl

/-- **The stack is one.** A bracket that waits at `k` was put on the stack at its place, and
what lies below it has not been touched since. -/
theorem openAt_suffix {text : List Char} {o : Nat} {rest : List Nat} :
    ∀ {k : Nat}, (o :: rest) <:+ openAt text k →
      o < k ∧ text[o]? = some '[' ∧ openAt text o = rest ∧
        ∀ m, o < m → m ≤ k → (o :: rest) <:+ openAt text m := by
  intro k
  induction k with
  | zero => intro h; cases List.suffix_nil.mp h
  | succ k ih =>
    intro h
    -- either the bracket waits at `k` already, or it is the one at `k`
    have hcase : (o :: rest) <:+ openAt text k ∨
        (o = k ∧ text[k]? = some '[' ∧ openAt text k = rest) := by
      cases hc : text[k]? with
      | none => rw [openAt_succ_of_getElem?_eq_none hc] at h; exact Or.inl h
      | some c =>
        rw [openAt_succ hc] at h
        split at h
        · rename_i hi
          rcases List.suffix_cons_iff.mp h with he | hs
          · injection he with h1 h2
            rw [Instruction.ofChar?_eq_some_iff] at hi
            exact Or.inr ⟨h1, by rw [hi]; rfl, h2.symm⟩
          · exact Or.inl hs
        · exact Or.inl (h.trans (List.tail_suffix _))
        · exact Or.inl h
    rcases hcase with hs | ⟨rfl, hc, hr⟩
    · obtain ⟨hlt, ho, hrest, hall⟩ := ih hs
      refine ⟨Nat.lt_succ_of_lt hlt, ho, hrest, fun m hm hmk => ?_⟩
      rcases Nat.lt_or_ge k m with hkm | hkm
      · have : m = k + 1 := by omega
        rw [this]; exact h
      · exact hall m hm hkm
    · refine ⟨Nat.lt_succ_self _, hc, hr, fun m hm hmk => ?_⟩
      have : m = o + 1 := by omega
      rw [this]; exact h

theorem suffix_of_mem_openAt {text : List Char} {k o : Nat} (h : o ∈ openAt text k) :
    (o :: openAt text o) <:+ openAt text k := by
  obtain ⟨above, below, he⟩ := List.append_of_mem h
  have hs : (o :: below) <:+ openAt text k := ⟨above, he.symm⟩
  rw [(openAt_suffix hs).2.2.1]; exact hs

theorem lt_of_mem_openAt {text : List Char} {k o : Nat} (h : o ∈ openAt text k) : o < k :=
  (openAt_suffix (suffix_of_mem_openAt h)).1

theorem getElem?_of_mem_openAt {text : List Char} {k o : Nat} (h : o ∈ openAt text k) :
    text[o]? = some '[' :=
  (openAt_suffix (suffix_of_mem_openAt h)).2.1

theorem not_mem_openAt_self (text : List Char) (o : Nat) : o ∉ openAt text o :=
  fun h => Nat.lt_irrefl o (lt_of_mem_openAt h)

theorem openAt_pairwise (text : List Char) (k : Nat) : (openAt text k).Pairwise (· > ·) := by
  induction k with
  | zero => exact List.Pairwise.nil
  | succ k ih =>
    cases hc : text[k]? with
    | none => rw [openAt_succ_of_getElem?_eq_none hc]; exact ih
    | some c =>
      rw [openAt_succ hc]
      split
      · exact List.pairwise_cons.mpr ⟨fun o ho => lt_of_mem_openAt ho, ih⟩
      · exact ih.tail
      · exact ih

/-! ## Partners -/

structure Pair (text : List Char) (i j : Nat) : Prop where
  opens : text[i]? = some '['
  closes : text[j]? = some ']'
  top : openAt text j = i :: openAt text i

theorem pair_of_top {text : List Char} {i j : Nat} {rest : List Nat} (hc : text[j]? = some ']')
    (ht : openAt text j = i :: rest) : Pair text i j := by
  have hs : (i :: rest) <:+ openAt text j := ⟨[], ht.symm⟩
  obtain ⟨-, ho, hr, -⟩ := openAt_suffix hs
  exact ⟨ho, hc, by rw [ht, hr]⟩

namespace Pair
variable {text : List Char} {i j : Nat}

theorem suffix (h : Pair text i j) {m : Nat} (hi : i < m) (hj : m ≤ j) :
    (i :: openAt text i) <:+ openAt text m := by
  have hs : (i :: openAt text i) <:+ openAt text j := ⟨[], h.top.symm⟩
  exact (openAt_suffix hs).2.2.2 m hi hj

theorem lt (h : Pair text i j) : i < j :=
  lt_of_mem_openAt (by rw [h.top]; exact List.mem_cons_self ..)

theorem lt_length (h : Pair text i j) : j < text.length :=
  (List.getElem?_eq_some_iff.mp h.closes).1

theorem openAt_succ (h : Pair text i j) : openAt text (j + 1) = openAt text i := by
  rw [openAt_succ_close h.closes, h.top]; rfl

theorem not_mem_openAt (h : Pair text i j) {k : Nat} (hk : j < k) : i ∉ openAt text k := by
  intro hm
  have hs := (openAt_suffix (suffix_of_mem_openAt hm)).2.2.2 (j + 1)
    (Nat.lt_succ_of_lt h.lt) hk
  rw [h.openAt_succ] at hs
  exact not_mem_openAt_self text i (hs.subset (List.mem_cons_self ..))

end Pair

/-! ## Depth -/

/-- How deep in the loop at `o` the place `k` is. -/
def depthIn (text : List Char) (o k : Nat) : Nat :=
  (openAt text k).length - (openAt text o).length

section
variable {text : List Char} {o k : Nat}

theorem length_openAt_lt (h : o ∈ openAt text k) :
    (openAt text o).length < (openAt text k).length := by
  have := (suffix_of_mem_openAt h).length_le
  rwa [List.length_cons] at this

theorem depthIn_pos (h : o ∈ openAt text k) : 0 < depthIn text o k :=
  Nat.sub_pos_of_lt (length_openAt_lt h)

theorem depthIn_self_succ (hc : text[o]? = some '[') : depthIn text o (o + 1) = 1 := by
  unfold depthIn
  rw [openAt_succ_open hc, List.length_cons]
  omega

theorem depthIn_succ_open (hc : text[k]? = some '[') (h : o ∈ openAt text k) :
    depthIn text o (k + 1) = depthIn text o k + 1 := by
  have := length_openAt_lt h
  unfold depthIn
  rw [openAt_succ_open hc, List.length_cons]
  omega

theorem depthIn_succ_close (hc : text[k]? = some ']') :
    depthIn text o (k + 1) = depthIn text o k - 1 := by
  unfold depthIn
  rw [openAt_succ_close hc, List.length_tail]
  omega

theorem depthIn_succ_plain {c : Char} (h : text[k]? = some c) (ho : c ≠ '[') (hc : c ≠ ']') :
    depthIn text o (k + 1) = depthIn text o k := by
  unfold depthIn
  rw [openAt_succ_plain h ho hc]

theorem Pair.depthIn_eq_one (h : Pair text o k) : depthIn text o k = 1 := by
  unfold depthIn
  rw [h.top, List.length_cons]
  omega

theorem pair_of_depthIn_eq_one (hc : text[k]? = some ']') (h : o ∈ openAt text k)
    (hd : depthIn text o k = 1) : Pair text o k := by
  have hs := suffix_of_mem_openAt h
  have hlen : (o :: openAt text o).length = (openAt text k).length := by
    have := length_openAt_lt h
    unfold depthIn at hd
    rw [List.length_cons]
    omega
  exact pair_of_top hc (hs.eq_of_length hlen).symm

theorem mem_openAt_succ_close (hc : text[k]? = some ']') (h : o ∈ openAt text k)
    (hd : depthIn text o k ≠ 1) : o ∈ openAt text (k + 1) := by
  obtain ⟨top, rest, hw⟩ := List.exists_cons_of_ne_nil (List.ne_nil_of_mem h)
  rw [openAt_succ_close hc, hw]
  rw [hw] at h
  rcases List.mem_cons.mp h with rfl | hmem
  · exact absurd (pair_of_top hc hw).depthIn_eq_one hd
  · exact hmem

end

/-! ## The table -/

theorem pair_snoc {text : List Char} {c : Char} {i j : Nat} :
    Pair (text ++ [c]) i j ↔
      Pair text i j ∨
        (j = text.length ∧ c = ']' ∧ (openAt text text.length).head? = some i) := by
  constructor
  · intro h
    have hj : j < text.length + 1 := by simpa using h.lt_length
    have hij := h.lt
    rcases Nat.lt_or_ge j text.length with hlt | hge
    · left
      have ho := h.opens
      have hc := h.closes
      have ht := h.top
      rw [List.getElem?_append_left (hij.trans hlt)] at ho
      rw [List.getElem?_append_left hlt] at hc
      rw [openAt_append hlt.le, openAt_append (hij.trans hlt).le] at ht
      exact ⟨ho, hc, ht⟩
    · right
      have he : j = text.length := by omega
      subst he
      have hc := h.closes
      have ht := h.top
      rw [List.getElem?_concat_length] at hc
      rw [openAt_append (Nat.le_refl _)] at ht
      exact ⟨rfl, Option.some.inj hc, by rw [ht]; rfl⟩
  · rintro (h | ⟨rfl, rfl, h⟩)
    · have hj := h.lt_length
      have hi := h.lt.trans hj
      refine ⟨?_, ?_, ?_⟩
      · rw [List.getElem?_append_left hi]; exact h.opens
      · rw [List.getElem?_append_left hj]; exact h.closes
      · rw [openAt_append hj.le, openAt_append hi.le]; exact h.top
    · obtain ⟨rest, hr⟩ := List.head?_eq_some_iff.mp h
      have ht : openAt (text ++ [']']) text.length = i :: rest := by
        rw [openAt_append (Nat.le_refl _), hr]
      exact pair_of_top List.getElem?_concat_length ht

theorem openAt_length (text : List Char) :
    openAt text text.length = (bracketScan text).waiting := by
  unfold openAt
  rw [List.take_length]

theorem getElem?_push_join {α : Type} (xs : Array (Option α)) (x : Option α) (i : Nat) :
    (xs.push x)[i]?.join = if i = xs.size then x else xs[i]?.join := by
  rw [Array.getElem?_push]
  split <;> rfl

theorem partner?_snoc_close {text : List Char} {o : Nat}
    (ho : (openAt text text.length).head? = some o) (i : Nat) :
    (Brackets.ofList (text ++ [']'])).partner? i =
      if i = text.length then some o
      else if i = o then some text.length
      else (Brackets.ofList text).partner? i := by
  have hlt : o < text.length := lt_of_mem_openAt (List.mem_of_head? ho)
  have hsize := size_partners_bracketScan text
  rw [openAt_length] at ho
  obtain ⟨rest, hw⟩ := List.head?_eq_some_iff.mp ho
  have hscan : (bracketScan (text ++ [']'])).partners =
      ((bracketScan text).partners.setIfInBounds o (some text.length)).push (some o) := by
    rw [bracketScan_snoc]
    simp only [BracketScan.next, Instruction.ofChar?, hw, hsize]
  change (bracketScan (text ++ [']'])).partners[i]?.join = _
  rw [hscan, getElem?_push_join, Array.size_setIfInBounds, hsize, Array.getElem?_setIfInBounds,
    hsize, if_pos hlt]
  by_cases hi : i = text.length
  · rw [if_pos hi, if_pos hi]
  · rw [if_neg hi, if_neg hi]
    by_cases hio : i = o
    · rw [if_pos hio.symm, if_pos hio]; rfl
    · rw [if_neg (Ne.symm hio), if_neg hio]; rfl

theorem partner?_snoc_of_no_pair {text : List Char} {c : Char}
    (hc : c = ']' → openAt text text.length = []) (i : Nat) :
    (Brackets.ofList (text ++ [c])).partner? i = (Brackets.ofList text).partner? i := by
  have hscan : (bracketScan (text ++ [c])).partners = (bracketScan text).partners.push none := by
    rw [bracketScan_snoc]
    cases hi : Instruction.ofChar? c with
    | none => simp only [BracketScan.next, hi]
    | some inst =>
      cases inst with
      | closeLoop =>
        have hw := hc (Instruction.ofChar?_eq_some_iff.mp hi)
        rw [openAt_length] at hw
        simp only [BracketScan.next, hi, hw]
      | _ => simp only [BracketScan.next, hi]
  change (bracketScan (text ++ [c])).partners[i]?.join = (bracketScan text).partners[i]?.join
  rw [hscan, getElem?_push_join]
  split
  · rename_i hi
    rw [hi, Array.getElem?_eq_none (Nat.le_refl _)]; rfl
  · rfl

/-- **Partners.** The table names `j` as the partner of `i` exactly when one of them is on top
of the stack at the other. -/
theorem partner?_eq_some_iff {text : List Char} {i j : Nat} :
    (Brackets.ofList text).partner? i = some j ↔ Pair text i j ∨ Pair text j i := by
  induction text using List.reverseRecOn generalizing i j with
  | nil =>
    constructor
    · intro h; cases h
    · rintro (h | h) <;> cases h.opens
  | append_singleton text c ih =>
    rw [pair_snoc, pair_snoc]
    by_cases hc : c = ']' → openAt text text.length = []
    · rw [partner?_snoc_of_no_pair hc, ih]
      have hno : ∀ k, ¬(c = ']' ∧ (openAt text text.length).head? = some k) := by
        rintro k ⟨h, hk⟩
        rw [hc h] at hk; cases hk
      simp only [hno, and_false, or_false]
    · rw [Classical.not_imp] at hc
      obtain ⟨rfl, hne⟩ := hc
      obtain ⟨o, rest, hw⟩ := List.exists_cons_of_ne_nil hne
      have ho : (openAt text text.length).head? = some o := by rw [hw]; rfl
      have hmem : o ∈ openAt text text.length := List.mem_of_head? ho
      have hlt : o < text.length := lt_of_mem_openAt hmem
      rw [partner?_snoc_close ho, ho]
      by_cases hi : i = text.length
      · -- the new bracket itself
        subst hi
        have h1 : ¬ Pair text text.length j := fun h => Nat.lt_irrefl _ (h.lt.trans h.lt_length)
        have h2 : ¬ Pair text j text.length := fun h => Nat.lt_irrefl _ h.lt_length
        have h3 : ¬ o = text.length := Nat.ne_of_lt hlt
        simp [h1, h2, h3]
      · by_cases hio : i = o
        · -- the bracket that waited had no partner before
          subst hio
          have h1 : ¬ Pair text i j := fun h => h.not_mem_openAt h.lt_length hmem
          have h2 : ¬ Pair text j i := by
            intro h
            have hopen := getElem?_of_mem_openAt hmem
            rw [h.closes] at hopen
            exact absurd hopen (by decide)
          simp [hi, h1, h2, eq_comm]
        · rw [if_neg hi, if_neg hio, ih]
          simp [hi, Ne.symm hio]

theorem partner?_of_pair {text : List Char} {i j : Nat} (h : Pair text i j) :
    (Brackets.ofList text).partner? i = some j ∧ (Brackets.ofList text).partner? j = some i :=
  ⟨partner?_eq_some_iff.mpr (Or.inl h), partner?_eq_some_iff.mpr (Or.inr h)⟩

theorem not_pair_of_partner?_eq_none {text : List Char} {i : Nat}
    (h : (Brackets.ofList text).partner? i = none) (j : Nat) : ¬ Pair text i j := by
  intro hp
  rw [(partner?_of_pair hp).1] at h; cases h

theorem pair_of_partner?_open {text : List Char} {i j : Nat} (ho : text[i]? = some '[')
    (h : (Brackets.ofList text).partner? i = some j) : Pair text i j := by
  rcases partner?_eq_some_iff.mp h with hp | hp
  · exact hp
  · have hc := hp.closes
    rw [ho] at hc
    exact absurd hc (by decide)

/-! ## Brackets without partner -/

theorem mem_openAt_or_pair {text : List Char} {i k : Nat} (ho : text[i]? = some '[') (hk : i < k) :
    i ∈ openAt text k ∨ ∃ j, j < k ∧ Pair text i j := by
  induction k, hk using Nat.le_induction with
  | base => rw [openAt_succ_open ho]; exact Or.inl (List.mem_cons_self ..)
  | succ k hk ih =>
    rcases ih with hmem | ⟨j, hj, hp⟩
    · cases hc : text[k]? with
      | none => rw [openAt_succ_of_getElem?_eq_none hc]; exact Or.inl hmem
      | some c =>
        rw [openAt_succ hc]
        split
        · exact Or.inl (List.mem_cons_of_mem _ hmem)
        · rename_i hi
          rw [Instruction.ofChar?_eq_some_iff] at hi
          rw [hi] at hc
          obtain ⟨o, rest, hw⟩ := List.exists_cons_of_ne_nil (List.ne_nil_of_mem hmem)
          rw [hw] at hmem ⊢
          rcases List.mem_cons.mp hmem with rfl | hrest
          · exact Or.inr ⟨k, Nat.lt_succ_self k, pair_of_top hc hw⟩
          · exact Or.inl hrest
        · exact Or.inl hmem
    · exact Or.inr ⟨j, Nat.lt_succ_of_lt hj, hp⟩

theorem mem_openAt_of_no_pair {text : List Char} {i : Nat} (ho : text[i]? = some '[')
    (hno : ∀ j, ¬ Pair text i j) {k : Nat} (hk : i < k) : i ∈ openAt text k :=
  (mem_openAt_or_pair ho hk).resolve_right fun ⟨j, _, hp⟩ => hno j hp

theorem partner?_open_eq_none_iff {text : List Char} {i : Nat} (ho : text[i]? = some '[') :
    (Brackets.ofList text).partner? i = none ↔ i ∈ openAt text text.length := by
  constructor
  · intro h
    exact mem_openAt_of_no_pair ho (not_pair_of_partner?_eq_none h) (List.getElem?_eq_some_iff.mp ho).1
  · intro hm
    cases h : (Brackets.ofList text).partner? i with
    | none => rfl
    | some j =>
      have hp := pair_of_partner?_open ho h
      exact absurd hm (hp.not_mem_openAt hp.lt_length)

theorem partner?_close_eq_none_iff {text : List Char} {j : Nat} (hc : text[j]? = some ']') :
    (Brackets.ofList text).partner? j = none ↔ openAt text j = [] := by
  cases hw : openAt text j with
  | nil =>
    refine iff_of_true (Option.eq_none_iff_forall_ne_some.mpr fun i h => ?_) rfl
    rcases partner?_eq_some_iff.mp h with hp | hp
    · have ho := hp.opens
      rw [hc] at ho
      exact absurd ho (by decide)
    · rw [hp.top] at hw; cases hw
  | cons i rest =>
    rw [(partner?_of_pair (pair_of_top hc hw)).2]
    exact iff_of_false (by simp) (by simp)

def unmatchedPlaces (b : Bracket) (text : List Char) : List Nat :=
  (List.range text.length).filter fun i =>
    text[i]? = some b.symbol ∧ (Brackets.ofList text).partner? i = none

theorem mem_unmatchedPlaces {b : Bracket} {text : List Char} {i : Nat} :
    i ∈ unmatchedPlaces b text ↔
      text[i]? = some b.symbol ∧ (Brackets.ofList text).partner? i = none := by
  unfold unmatchedPlaces
  rw [List.mem_filter, List.mem_range, decide_eq_true_eq]
  constructor
  · exact fun h => h.2
  · exact fun h => ⟨(List.getElem?_eq_some_iff.mp h.1).1, h⟩

theorem unmatchedPlaces_pairwise (b : Bracket) (text : List Char) :
    (unmatchedPlaces b text).Pairwise (· < ·) :=
  List.pairwise_lt_range.filter _

/-- The opening brackets without partner are the stack at the end, from the bottom up. -/
theorem unmatchedPlaces_opening (text : List Char) :
    unmatchedPlaces .opening text = (openAt text text.length).reverse := by
  refine (unmatchedPlaces_pairwise .opening text).eq_of_mem_iff
    (List.pairwise_reverse.mpr (openAt_pairwise text _)) fun i => ?_
  rw [mem_unmatchedPlaces, List.mem_reverse]
  constructor
  · exact fun ⟨ho, hn⟩ => (partner?_open_eq_none_iff ho).mp hn
  · intro hm
    have ho := getElem?_of_mem_openAt hm
    exact ⟨ho, (partner?_open_eq_none_iff ho).mpr hm⟩

theorem mem_unmatchedPlaces_closing {text : List Char} {j : Nat} :
    j ∈ unmatchedPlaces .closing text ↔ text[j]? = some ']' ∧ openAt text j = [] := by
  rw [mem_unmatchedPlaces]
  constructor
  · exact fun ⟨hc, hn⟩ => ⟨hc, (partner?_close_eq_none_iff hc).mp hn⟩
  · exact fun ⟨hc, hn⟩ => ⟨hc, (partner?_close_eq_none_iff hc).mpr hn⟩

def ClosesWell (text : List Char) (k : Nat) : Prop :=
  ∀ j, j < k → text[j]? = some ']' → openAt text j ≠ []

theorem unmatchedPlaces_closing_take_eq_nil_iff {text : List Char} {k : Nat} :
    unmatchedPlaces .closing (text.take k) = [] ↔ ClosesWell text k := by
  rw [List.eq_nil_iff_forall_not_mem]
  refine forall_congr' fun j => ?_
  rw [mem_unmatchedPlaces_closing, List.getElem?_take]
  by_cases hj : j < k
  · rw [if_pos hj, openAt_take hj.le, not_and]
    exact ⟨fun h _ => h, fun h => h hj⟩
  · rw [if_neg hj]
    exact iff_of_true (fun h => nomatch h.1) (fun h => absurd h hj)

end Brainfuck
