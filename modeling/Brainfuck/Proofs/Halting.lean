import Brainfuck.Machine

/-!
# Runs of the machine

What the machine does from a state on, apart from all that may end a run from
outside: `Reaches` counts the steps between two states, and `Halts` the steps to the
end, where a step that fails counts too. The machine is deterministic, so what it comes
to does not depend on how the run is cut into parts (`Reaches.halts_iff`). It meets one
character for every step it takes to its end and no more (`busy_iff`). A machine that takes one or
more steps for each of another comes to an end when that one does (`Simulation.halts_iff`).
-/

namespace Brainfuck

inductive Reaches (code : Code) : Nat → State → State → Prop
  | refl (s : State) : Reaches code 0 s s
  | step {n : Nat} {s t : State} {c : Char} {a : Action} (hc : code.text[s.ip]? = some c)
      (ha : s.action code c = .ok a) (rest : Reaches code n (s.perform a) t) : Reaches code (n + 1) s t

/-- From a state the machine comes to `r` in `n` steps. A step that fails on a bracket counts;
the look at the end of the text does not. -/
inductive Halts (code : Code) : State → Nat → Except Unmatched String → Prop
  | finish {s : State} {r : Except Unmatched String} (hc : code.text[s.ip]? = none) (hr : s.finish = r) :
      Halts code s 0 r
  | fail {s : State} {c : Char} {u : Unmatched} (hc : code.text[s.ip]? = some c)
      (ha : s.action code c = .error u) : Halts code s 1 (.error u)
  | step {n : Nat} {s : State} {r : Except Unmatched String} {c : Char} {a : Action}
      (hc : code.text[s.ip]? = some c) (ha : s.action code c = .ok a)
      (rest : Halts code (s.perform a) n r) : Halts code s (n + 1) r

section
variable {code : Code} {s t u : State} {m n : Nat} {r r' : Except Unmatched String}

/-! ## Steps -/

theorem Reaches.single {c : Char} {a : Action} (hc : code.text[s.ip]? = some c)
    (ha : s.action code c = .ok a) : Reaches code 1 s (s.perform a) :=
  .step hc ha (.refl _)

theorem Reaches.trans (h : Reaches code m s t) (h' : Reaches code n t u) : Reaches code (m + n) s u := by
  induction h with
  | refl s => rw [Nat.zero_add]; exact h'
  | step hc ha _ ih => rw [Nat.add_right_comm]; exact .step hc ha (ih h')

theorem Reaches.exists_snoc (h : Reaches code (n + 1) s u) :
    ∃ t c a, Reaches code n s t ∧ code.text[t.ip]? = some c ∧ t.action code c = .ok a ∧ t.perform a = u := by
  induction n generalizing s with
  | zero =>
    cases h with
    | step hc ha rest =>
      cases rest
      exact ⟨s, _, _, .refl s, hc, ha, rfl⟩
  | succ n ih =>
    cases h with
    | step hc ha rest =>
      obtain ⟨t, c, a, hr, hlast⟩ := ih rest
      exact ⟨t, c, a, .step hc ha hr, hlast⟩

theorem Reaches.invariant {P : State → Prop} (h : Reaches code n s t)
    (hstep : ∀ s c a, P s → code.text[s.ip]? = some c → s.action code c = .ok a → P (s.perform a))
    (hs : P s) : P t := by
  induction h with
  | refl s => exact hs
  | step hc ha _ ih => exact ih (hstep _ _ _ hs hc ha)

/-! ## Ends -/

theorem Halts.step_inv {c : Char} {a : Action} (h : Halts code s n r) (hc : code.text[s.ip]? = some c)
    (ha : s.action code c = .ok a) : ∃ m, n = m + 1 ∧ Halts code (s.perform a) m r := by
  cases h with
  | finish hc' hr => rw [hc] at hc'; cases hc'
  | fail hc' ha' =>
    rw [hc] at hc'; cases hc'
    rw [ha] at ha'; cases ha'
  | step hc' ha' rest =>
    rw [hc] at hc'; cases hc'
    rw [ha] at ha'; cases ha'
    exact ⟨_, rfl, rest⟩

/-- A run that has come a part of its way comes to the same in the steps that are left. -/
theorem Reaches.halts_iff (h : Reaches code m s t) :
    Halts code s n r ↔ ∃ k, n = k + m ∧ Halts code t k r := by
  induction h generalizing n with
  | refl s =>
    constructor
    · exact fun hh => ⟨n, rfl, hh⟩
    · rintro ⟨k, rfl, hh⟩; exact hh
  | step hc ha _ ih =>
    constructor
    · intro hh
      obtain ⟨j, rfl, hj⟩ := hh.step_inv hc ha
      obtain ⟨k, rfl, hk⟩ := ih.mp hj
      exact ⟨k, rfl, hk⟩
    · rintro ⟨k, rfl, hk⟩
      exact .step hc ha (ih.mpr ⟨k, rfl, hk⟩)

theorem Reaches.halts (h : Reaches code m s t) (hh : Halts code t n r) : Halts code s (n + m) r :=
  h.halts_iff.mpr ⟨n, rfl, hh⟩

theorem Halts.deterministic (h : Halts code s n r) (h' : Halts code s m r') : n = m ∧ r = r' := by
  induction h generalizing m with
  | finish hc hr =>
    cases h' with
    | finish _ hr' => exact ⟨rfl, hr.symm.trans hr'⟩
    | fail hc' => rw [hc] at hc'; cases hc'
    | step hc' => rw [hc] at hc'; cases hc'
  | fail hc ha =>
    cases h' with
    | finish hc' => rw [hc] at hc'; cases hc'
    | fail hc' ha' =>
      rw [hc] at hc'; cases hc'
      rw [ha] at ha'; cases ha'
      exact ⟨rfl, rfl⟩
    | step hc' ha' =>
      rw [hc] at hc'; cases hc'
      rw [ha] at ha'; cases ha'
  | step hc ha _ ih =>
    obtain ⟨k, rfl, hk⟩ := h'.step_inv hc ha
    obtain ⟨rfl, rfl⟩ := ih hk
    exact ⟨rfl, rfl⟩

/-- The last steps of a run: all but one that fails are completed. -/
theorem Halts.exists_last (h : Halts code s n r) :
    ∃ t k, Reaches code k s t ∧
      ((code.text[t.ip]? = none ∧ t.finish = r ∧ n = k) ∨
        ∃ c u, code.text[t.ip]? = some c ∧ t.action code c = .error u ∧ r = .error u ∧ n = k + 1) := by
  induction h with
  | finish hc hr => exact ⟨_, 0, .refl _, Or.inl ⟨hc, hr, rfl⟩⟩
  | fail hc ha => exact ⟨_, 0, .refl _, Or.inr ⟨_, _, hc, ha, rfl, rfl⟩⟩
  | step hc ha _ ih =>
    obtain ⟨t, k, hr, ⟨hc', hf, rfl⟩ | ⟨c, u, hc', ha', rfl, rfl⟩⟩ := ih
    · exact ⟨t, _, .step hc ha hr, Or.inl ⟨hc', hf, rfl⟩⟩
    · exact ⟨t, _, .step hc ha hr, Or.inr ⟨c, u, hc', ha', rfl, rfl⟩⟩

def Busy (code : Code) (s : State) (n : Nat) : Prop :=
  ∃ t c, Reaches code n s t ∧ code.text[t.ip]? = some c

theorem Halts.lt_of_busy (h : Halts code s n r) (hb : Busy code s m) : m < n := by
  obtain ⟨t, c, hr, hc⟩ := hb
  obtain ⟨k, rfl, hk⟩ := hr.halts_iff.mp h
  cases hk with
  | finish hc' => rw [hc] at hc'; cases hc'
  | fail => omega
  | step => omega

theorem busy_of_forall_lt (h : ∀ n r, Halts code s n r → m < n) : Busy code s m := by
  induction m generalizing s with
  | zero =>
    cases hc : code.text[s.ip]? with
    | none => exact absurd (h 0 _ (.finish hc rfl)) (Nat.lt_irrefl 0)
    | some c => exact ⟨s, c, .refl s, hc⟩
  | succ m ih =>
    cases hc : code.text[s.ip]? with
    | none => exact absurd (h 0 _ (.finish hc rfl)) (Nat.not_lt_zero _)
    | some c =>
      cases ha : s.action code c with
      | error u => exact absurd (h 1 _ (.fail hc ha)) (by omega)
      | ok a =>
        obtain ⟨t, c', hr, hc'⟩ := ih fun n r hh => Nat.lt_of_succ_lt_succ (h _ _ (.step hc ha hh))
        exact ⟨t, c', .step hc ha hr, hc'⟩

/-- **Steps before the end.** The machine is busy for as many steps as it takes to its end. -/
theorem busy_iff : Busy code s m ↔ ∀ n r, Halts code s n r → m < n :=
  ⟨fun hb _ _ h => h.lt_of_busy hb, busy_of_forall_lt⟩

theorem Halts.busy_iff (h : Halts code s n r) : Busy code s m ↔ m < n := by
  constructor
  · exact h.lt_of_busy
  · intro hlt
    apply busy_of_forall_lt
    intro k r' h'
    obtain ⟨rfl, -⟩ := h.deterministic h'
    exact hlt

theorem halts_or_busy (code : Code) (s : State) (limit : Option Nat) :
    (∃ n r, Halts code s n r ∧ ∀ N, limit = some N → n ≤ N) ∨
      (∃ N, limit = some N ∧ Busy code s N) ∨ (limit = none ∧ ∀ n, Busy code s n) := by
  by_cases h : ∃ n r, Halts code s n r ∧ ∀ N, limit = some N → n ≤ N
  · exact Or.inl h
  · right
    cases limit with
    | none =>
      refine Or.inr ⟨rfl, fun n => ?_⟩
      apply busy_of_forall_lt
      intro k r hr
      exact absurd ⟨k, r, hr, fun N hN => nomatch hN⟩ h
    | some N =>
      refine Or.inl ⟨N, rfl, ?_⟩
      apply busy_of_forall_lt
      intro k r hr
      apply Nat.lt_of_not_le
      intro hle
      exact h ⟨k, r, hr, fun N' hN' => Option.some.inj hN' ▸ hle⟩

end

/-! ## One machine that follows another -/

/-- For related states, a step on the first code is one or more on the second that lead to related
states again, and where the first comes to its end the second comes to the result that `f` names. -/
structure Simulation (code code' : Code) (R : State → State → Prop)
    (f : Except Unmatched String → Except Unmatched String) : Prop where
  step : ∀ {s s' c a}, R s s' → code.text[s.ip]? = some c → s.action code c = .ok a →
    ∃ n t, Reaches code' (n + 1) s' t ∧ R (s.perform a) t
  fail : ∀ {s s' c u}, R s s' → code.text[s.ip]? = some c → s.action code c = .error u →
    ∃ n, Halts code' s' n (f (.error u))
  finish : ∀ {s s'}, R s s' → code.text[s.ip]? = none → ∃ n, Halts code' s' n (f s.finish)

namespace Simulation
variable {code code' : Code} {R : State → State → Prop} {f : Except Unmatched String → Except Unmatched String}
  {s s' : State}

theorem halts (h : Simulation code code' R f) {n : Nat} {r : Except Unmatched String}
    (hh : Halts code s n r) (hR : R s s') : ∃ m, Halts code' s' m (f r) := by
  induction hh generalizing s' with
  | finish hc hr =>
    rw [← hr]
    exact h.finish hR hc
  | fail hc ha => exact h.fail hR hc ha
  | step hc ha _ ih =>
    obtain ⟨k, t, hr, hR'⟩ := h.step hR hc ha
    obtain ⟨m, hm⟩ := ih hR'
    exact ⟨_, hr.halts hm⟩

/-- The other way round, by induction on the steps of the machine that follows. -/
theorem exists_halts (h : Simulation code code' R f) {m : Nat} {r' : Except Unmatched String} :
    ∀ {s s' : State}, Halts code' s' m r' → R s s' → ∃ n r, Halts code s n r := by
  induction m using Nat.strongRecOn with
  | ind m ih =>
    intro s s' hh hR
    cases hc : code.text[s.ip]? with
    | none => exact ⟨0, _, .finish hc rfl⟩
    | some c =>
      cases ha : s.action code c with
      | error u => exact ⟨1, _, .fail hc ha⟩
      | ok a =>
        obtain ⟨k, t, hr, hR'⟩ := h.step hR hc ha
        obtain ⟨j, rfl, hj⟩ := hr.halts_iff.mp hh
        obtain ⟨n, r, hn⟩ := ih j (by omega) hj hR'
        exact ⟨n + 1, r, .step hc ha hn⟩

/-- **Following.** The second machine comes to an end exactly when the first does, and to the result
that belongs to it. -/
theorem halts_iff (h : Simulation code code' R f) (hR : R s s') {r' : Except Unmatched String} :
    (∃ m, Halts code' s' m r') ↔ ∃ n r, Halts code s n r ∧ r' = f r := by
  constructor
  · rintro ⟨m, hm⟩
    obtain ⟨n, r, hn⟩ := h.exists_halts hm hR
    obtain ⟨m', hm'⟩ := h.halts hn hR
    exact ⟨n, r, hn, (hm.deterministic hm').2⟩
  · rintro ⟨n, r, hn, rfl⟩
    exact h.halts hn hR

end Simulation

end Brainfuck
