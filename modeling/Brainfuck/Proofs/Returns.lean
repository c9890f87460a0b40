import Brainfuck.Proofs.Record

/-!
# What an execution returns

An execution that nobody calls off and nobody records returns what the machine comes
to, unless that takes more steps than are allowed (`Engine.returns_iff`).
-/

namespace Brainfuck

namespace Engine

def adapt (e : Engine) (strategy : LoopStrategy) (limit : Option Nat) : Engine :=
  { e with loopStrategy := strategy, maxSteps := limit }

/-- The execution of a program that nobody calls off or records returns `result`. -/
def Returns (e : Engine) (program input : String) (result : Except RunError String) : Prop :=
  ∃ n, e.execute n Controls.none none program input = some { result, sink := none }

def ReturnsAfter (e : Engine) (k : Nat) (program input : String)
    (result : Except RunError String) : Prop :=
  ∃ run, e.progress k Controls.none none program input = .running run ∧
    run.next (e.code program) (e.controls Controls.none) = .ended { result, sink := none }

variable {e : Engine} {program input : String} {result : Except RunError String}

theorem Returns.unique {result' : Except RunError String} (h : e.Returns program input result)
    (h' : e.Returns program input result') : result = result' := by
  have := Ends.unique h h'
  cases this; rfl

/-- **What an execution returns.** It is what the machine comes to, when there are steps enough
for that, and else the limit. -/
theorem returns_iff :
    e.Returns program input result ↔
      (∃ n r, Halts (e.code program) (e.initial input) n r ∧ (∀ N, e.maxSteps = some N → n ≤ N) ∧
        result = r.mapError .unmatched) ∨
      (∃ N, e.maxSteps = some N ∧ (∀ n r, Halts (e.code program) (e.initial input) n r → N < n) ∧
        result = .error (.stepLimitExceeded N)) := by
  change e.Ends Controls.none none program input { result, sink := none } ↔ _
  rw [ends_iff Controls.neverCancels_none fun n => hasRoom_none _]
  simp [Controls.none, busy_iff]

theorem returns_unlimited_iff (hmax : e.maxSteps = none) :
    e.Returns program input result ↔
      ∃ n r, Halts (e.code program) (e.initial input) n r ∧ result = r.mapError .unmatched := by
  rw [returns_iff]
  simp [hmax]

theorem returns_limited_iff {N : Nat} (hmax : e.maxSteps = some N)
    (hne : ∀ limit, result ≠ .error (.stepLimitExceeded limit)) :
    e.Returns program input result ↔
      ∃ n r, Halts (e.code program) (e.initial input) n r ∧ n ≤ N ∧ result = r.mapError .unmatched := by
  rw [returns_iff]
  simp [hmax, hne]

theorem execute_eq_none_iff (hmax : e.maxSteps = none) :
    (∀ n, e.execute n Controls.none none program input = none) ↔
      ∀ n r, ¬ Halts (e.code program) (e.initial input) n r := by
  constructor
  · intro h n r hr
    obtain ⟨m, hm⟩ := (returns_unlimited_iff hmax).mpr ⟨n, r, hr, rfl⟩
    rw [h m] at hm; cases hm
  · intro h
    apply execute_eq_none_of_busy Controls.neverCancels_none hmax
    · intro n
      exact busy_of_forall_lt fun k r hr => absurd hr (h k r)
    · exact fun n => hasRoom_none _

theorem progress_of_reaches (hmax : e.maxSteps = none) {n : Nat} {s : State}
    (h : Reaches (e.code program) n (e.initial input) s) :
    e.progress n Controls.none none program input = .running { steps := n, state := s, sink := none } := by
  apply progress_eq h
  · apply free_of_le Controls.neverCancels_none
    intro N hN
    rw [hmax] at hN; cases hN
  · exact hasRoom_none _

theorem Returns.exists_after (h : e.Returns program input result) :
    ∃ k, e.ReturnsAfter k program input result :=
  Ends.exists_after (hasRoom_none _) h

theorem halts_of_returnsAfter_ok {k : Nat} {o : String}
    (h : e.ReturnsAfter k program input (.ok o)) :
    Halts (e.code program) (e.initial input) k (.ok o) := by
  obtain ⟨run, hp, hn⟩ := h
  obtain ⟨hr, -⟩ := reaches_of_progress hp
  obtain ⟨hc, hf⟩ := Run.next_eq_ended_ok hn
  have := hr.halts (.finish hc hf)
  rwa [Nat.zero_add] at this

end Engine

end Brainfuck
