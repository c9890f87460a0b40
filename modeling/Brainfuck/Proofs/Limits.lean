import Brainfuck.Proofs.Returns
import Mathlib.Data.Set.Card

/-!
# Limits and cancellation

Left to itself, an execution finds a character to work on a number of times, or always
(`Engine.iterations`). A limit below that number cuts the record after as many rows, and
any other limit changes nothing (`Engine.limit_truncates`). A cancellation does the same at
the place where it is first seen, unless the execution has ended before
(`Engine.cancellation_cuts`).
-/

namespace Brainfuck

namespace Engine

def withLimit (e : Engine) (limit : Option Nat) : Engine :=
  { e with maxSteps := limit }

/-- How often an execution that nobody limits, calls off or records gets past its look at the end
of the text. -/
noncomputable def iterations (e : Engine) (program input : String) : ℕ∞ :=
  Set.encard { i | ∃ run, (e.withLimit none).progress i Controls.none none program input = .running run ∧
    run.state.ip < program.length }

section
variable {e : Engine} {program input : String} {n : Nat} {r : Except Unmatched String}

theorem lt_length_iff {i : Nat} : i < program.length ↔ ∃ c, (e.code program).text[i]? = some c := by
  rw [← String.length_toList]
  simp [code, Code.ofList, List.getElem?_eq_some_iff]

theorem busy_iff_progress {i : Nat} :
    Busy (e.code program) (e.initial input) i ↔
      ∃ run, (e.withLimit none).progress i Controls.none none program input = .running run ∧
        run.state.ip < program.length := by
  constructor
  · intro h
    obtain ⟨t, c, hr, hc⟩ := h
    exact ⟨_, progress_of_reaches rfl hr, lt_length_iff.mpr ⟨c, hc⟩⟩
  · intro h
    obtain ⟨run, hp, hlt⟩ := h
    obtain ⟨c, hc⟩ := lt_length_iff.mp hlt
    exact ⟨run.state, c, (reaches_of_progress hp).1, hc⟩

theorem iterations_eq :
    e.iterations program input = Set.encard { i | Busy (e.code program) (e.initial input) i } := by
  simp only [busy_iff_progress]
  rfl

theorem iterations_of_halts (h : Halts (e.code program) (e.initial input) n r) :
    e.iterations program input = n := by
  have hset : { i | Busy (e.code program) (e.initial input) i } = (Finset.range n : Set Nat) := by
    ext i
    simp [h.busy_iff]
  rw [iterations_eq, hset, Set.encard_coe_eq_coe_finsetCard, Finset.card_range]

theorem iterations_of_not_halts (h : ∀ n r, ¬ Halts (e.code program) (e.initial input) n r) :
    e.iterations program input = ⊤ := by
  have hset : { i | Busy (e.code program) (e.initial input) i } = Set.univ := by
    apply Set.eq_univ_of_forall
    intro i
    exact busy_of_forall_lt fun k r hr => absurd hr (h k r)
  rw [iterations_eq, hset, Set.infinite_univ.encard_eq]

theorem lt_iterations_iff : n < e.iterations program input ↔ Busy (e.code program) (e.initial input) n := by
  by_cases h : ∃ k r, Halts (e.code program) (e.initial input) k r
  · obtain ⟨k, r, hr⟩ := h
    rw [iterations_of_halts hr, hr.busy_iff, Nat.cast_lt]
  · have hno : ∀ k r, ¬ Halts (e.code program) (e.initial input) k r := fun k r hr => h ⟨k, r, hr⟩
    rw [iterations_of_not_halts hno]
    apply iff_of_true (ENat.natCast_lt_top n)
    exact busy_of_forall_lt fun k r hr => absurd hr (hno k r)

end

/-! ## Limits -/

/-- An execution that nobody calls off, and whose limit is `limit` whether it comes with the execution
or is the engine's own, comes to `result` and leaves `record`. -/
def RecordsWithin (e : Engine) (limit : Option Nat) (program input : String)
    (result : Except RunError String) (record : String) : Prop :=
  ∀ own given, given.NeverCancels → given.maxSteps.or own = limit →
    (e.withLimit own).Records given program input result record

section
variable {e : Engine} {program input : String} {n : Nat} {r : Except Unmatched String}

theorem recordsWithin_of_halts {limit : Option Nat} (h : Halts (e.code program) (e.initial input) n r)
    (hn : ∀ N, limit = some N → n ≤ N) :
    e.RecordsWithin limit program input (r.mapError .unmatched) (e.record program input n) := by
  intro own given hgiven hlimit
  have hfree : (e.withLimit own).Free given (some Sink.unbounded) program input n := by
    apply free_of_le hgiven
    intro N hN
    exact hn N (hlimit.symm.trans hN)
  exact ends_of_halts h hfree (hasRoom_unbounded _)

theorem recordsWithin_of_busy {N : Nat} (h : Busy (e.code program) (e.initial input) N) :
    e.RecordsWithin (some N) program input (.error (.stepLimitExceeded N)) (e.record program input N) := by
  intro own given hgiven hlimit
  exact ends_of_limit hgiven hlimit h (hasRoom_unbounded _)

theorem length_rows_of_busy (h : Busy (e.code program) (e.initial input) n) :
    (e.rows program input n).length = n := by
  obtain ⟨t, c, hr, -⟩ := h
  exact length_rows hr

/-- The steps to the end are those with a row, and one that fails. -/
theorem eq_length_rows_of_halts (h : Halts (e.code program) (e.initial input) n r) :
    ∃ run, (e.withLimit none).progress (e.rows program input n).length Controls.none none program input =
        .running run ∧
      n = if run.state.ip < program.length then (e.rows program input n).length + 1
        else (e.rows program input n).length := by
  obtain ⟨t, k, hr, ⟨hc, -, rfl⟩ | ⟨c, u, hc, ha, -, rfl⟩⟩ := h.exists_last
  · rw [length_rows hr]
    refine ⟨_, progress_of_reaches rfl hr, ?_⟩
    rw [if_neg]
    rw [lt_length_iff (e := e)]
    simp [hc]
  · rw [rows_fail hr hc ha, length_rows hr]
    refine ⟨_, progress_of_reaches rfl hr, ?_⟩
    rw [if_pos]
    exact lt_length_iff.mpr ⟨c, hc⟩

end

/-- **A limit truncates.** An execution that ends by itself has a number `K` of steps, the one that
fails included. A limit of `K` or more changes nothing, and a smaller one leaves the result out and
keeps as many rows. An execution that does not end by itself has rows for every limit. A row is never
empty, so their number shows in the record. -/
theorem limit_truncates (e : Engine) (program input : String) :
    (∀ row : Row, row.render ≠ "") ∧
    ((∃ (K : Nat) (R : Except RunError String),
      let rows := e.rows program input K
      K = e.iterations program input ∧ (program = "" → K = 0) ∧
      (∃ run, (e.withLimit none).progress rows.length Controls.none none program input = .running run ∧
        K = if run.state.ip < program.length then rows.length + 1 else rows.length) ∧
      e.RecordsWithin none program input R (Row.table rows) ∧
      ∀ N, (K ≤ N → e.RecordsWithin (some N) program input R (Row.table rows)) ∧
        (N < K → (rows.take N).length = N ∧
          e.RecordsWithin (some N) program input (.error (.stepLimitExceeded N)) (Row.table (rows.take N)))) ∨
    (e.iterations program input = ⊤ ∧
      (∀ own given, given.NeverCancels → given.maxSteps.or own = none →
        ∀ n, (e.withLimit own).execute n given (some Sink.unbounded) program input = none) ∧
      ∀ N, (e.rows program input N).length = N ∧
        e.RecordsWithin (some N) program input (.error (.stepLimitExceeded N))
          (Row.table (e.rows program input N)) ∧
        ∀ M ≤ N, ∃ more,
          Row.table (e.rows program input N) = Row.table (e.rows program input M) ++ more)) := by
  refine ⟨Row.render_ne_empty, ?_⟩
  by_cases h : ∃ K r, Halts (e.code program) (e.initial input) K r
  · left
    obtain ⟨K, r, hr⟩ := h
    refine ⟨K, r.mapError .unmatched, (iterations_of_halts hr).symm, ?_, eq_length_rows_of_halts hr, ?_, ?_⟩
    · intro hempty
      subst hempty
      have h0 : Halts (e.code "") (e.initial input) 0 _ := .finish rfl rfl
      exact (hr.deterministic h0).1
    · apply recordsWithin_of_halts hr
      intro N hN
      cases hN
    · intro N
      constructor
      · intro hle
        apply recordsWithin_of_halts hr
        intro N' hN'
        cases hN'
        exact hle
      · intro hlt
        have hbusy := hr.busy_iff.mpr hlt
        rw [take_rows hlt.le]
        exact ⟨length_rows_of_busy hbusy, recordsWithin_of_busy hbusy⟩
  · right
    have hno : ∀ n r, ¬ Halts (e.code program) (e.initial input) n r := fun n r hr => h ⟨n, r, hr⟩
    have hbusy : ∀ n, Busy (e.code program) (e.initial input) n :=
      fun n => busy_of_forall_lt fun k r hr => absurd hr (hno k r)
    refine ⟨iterations_of_not_halts hno, ?_, ?_⟩
    · intro own given hgiven hlimit
      exact execute_eq_none_of_busy hgiven hlimit hbusy fun n => hasRoom_unbounded _
    · intro N
      exact ⟨length_rows_of_busy (hbusy N), recordsWithin_of_busy (hbusy N),
        fun M hM => record_append_of_le hM⟩

theorem limit_truncates_stray_close :
    let header := "STEP | IP  | PTR | CELL | INSTR | ACTION\n" ++
      "-----+-----+-----+------+-------+------------------------------------------------\n"
    let row := "0    | 0   | 0   | 0    |  +    | Increment cell[0] from 0 to 1\n"
    (∃ R, standard.RecordsWithin (some 2) "+]" "" R (header ++ row)) ∧
      standard.RecordsWithin (some 1) "+]" "" (.error (.stepLimitExceeded 1)) (header ++ row) ∧
      standard.RecordsWithin (some 0) "+]" "" (.error (.stepLimitExceeded 0)) header := by
  intro header row
  have hhalts : Halts (standard.code "+]") (standard.initial "") 2 _ := .step rfl rfl (.fail rfl rfl)
  have hrows : standard.rows "+]" "" 2 = [⟨0, 0, 0, 0, '+', "Increment cell[0] from 0 to 1"⟩] := by decide
  have htable : Row.table (standard.rows "+]" "" 2) = header ++ row := by
    rw [hrows]
    decide +kernel
  rcases limit_truncates standard "+]" "" with ⟨-, ⟨K, R, hK, -, -, -, hN⟩ | ⟨htop, -⟩⟩
  · rw [iterations_of_halts hhalts, Nat.cast_inj] at hK
    subst hK
    have hone := ((hN 1).2 (by decide)).2
    have hzero := ((hN 0).2 (by decide)).2
    rw [List.take_of_length_le (by rw [hrows]; decide), htable] at hone
    exact ⟨⟨R, htable ▸ (hN 2).1 (by decide)⟩, hone, hzero⟩
  · rw [iterations_of_halts hhalts] at htop
    exact absurd htop (ENat.natCast_ne_top 2)

/-! ## Cancellation -/

section
variable {e : Engine} {given : Controls} {program input : String} {j : Nat}

theorem refusal?_eq_cancelled {controls : Controls} {run : Run}
    (h : controls.cancelled run.steps run.record = true) : run.refusal? controls = some .cancelled := by
  simp [Run.refusal?, h]

theorem record_runAt_unbounded (k : Nat) (t : State) :
    (e.runAt (some Sink.unbounded) program input k t).record = e.record program input k := by
  simp [runAt, Run.record, Sink.unbounded]

theorem uncancelled_before (hbefore : ∀ k < j, given.cancelled k (e.record program input k) = false) :
    e.Uncancelled given (some Sink.unbounded) program input j := by
  intro k hk t
  rw [record_runAt_unbounded]
  exact hbefore k hk

end

end Engine

def Controls.uncancelled (controls : Controls) : Controls :=
  { controls with cancelled := fun _ _ => false }

theorem Controls.neverCancels_uncancelled (controls : Controls) : controls.uncancelled.NeverCancels :=
  fun _ _ => rfl

namespace Engine

section
variable {e : Engine} {given : Controls} {program input : String} {j : Nat}
  (hbefore : ∀ k < j, given.cancelled k (e.record program input k) = false)
include hbefore

theorem records_cancelled (hseen : given.cancelled j (e.record program input j) = true)
    (hj : Busy (e.code program) (e.initial input) j)
    (hlimit : ∀ N, given.maxSteps.or e.maxSteps = some N → j ≤ N) :
    e.Records given program input (.error .cancelled) (e.record program input j) := by
  have hfree := (uncancelled_before hbefore).free hlimit
  refine (endsAfter_of_refusal hj hfree (hasRoom_unbounded _) ?_).ends
  intro t
  apply refusal?_eq_cancelled
  rw [record_runAt_unbounded]
  exact hseen

theorem records_both_of_halts {n : Nat} {r : Except Unmatched String}
    (h : Halts (e.code program) (e.initial input) n r) (hj : n ≤ j)
    (hlimit : ∀ N, given.maxSteps.or e.maxSteps = some N → n ≤ N) :
    ∃ R T, e.Records given program input R T ∧ e.Records given.uncancelled program input R T := by
  have hfree := ((uncancelled_before hbefore).mono hj).free hlimit
  exact ⟨_, _, ends_of_halts h hfree (hasRoom_unbounded _),
    ends_of_halts h (free_of_le given.neverCancels_uncancelled hlimit) (hasRoom_unbounded _)⟩

theorem records_both_of_limit {N : Nat} (hN : given.maxSteps.or e.maxSteps = some N) (hj : N < j)
    (hbusy : Busy (e.code program) (e.initial input) N) :
    ∃ R T, e.Records given program input R T ∧ e.Records given.uncancelled program input R T := by
  have hun := (uncancelled_before hbefore).mono hj
  exact ⟨_, _, (hun.endsAfter_of_limit hN hbusy (hasRoom_unbounded _)).ends,
    ends_of_limit given.neverCancels_uncancelled hN hbusy (hasRoom_unbounded _)⟩

end

/-- **A cancellation cuts.** The cancellation is first seen at the look before the step of number `j`.
If the execution gets so far, it is cancelled, and the record has the rows of the `j` steps before.
Otherwise it comes to what it comes to without the cancellation. -/
theorem cancellation_cuts (e : Engine) (given : Controls) (program input : String) (j : Nat)
    (hbefore : ∀ k < j, given.cancelled k (e.record program input k) = false)
    (hseen : given.cancelled j (e.record program input j) = true) :
    (j < e.iterations program input → (∀ N, given.maxSteps.or e.maxSteps = some N → j ≤ N) →
      e.Records given program input (.error .cancelled) (Row.table (e.rows program input j)) ∧
      (e.rows program input j).length = j ∧
      e.Writes given.uncancelled program input j (Row.table (e.rows program input j)) ∧
      ∀ R T, e.Records given.uncancelled program input R T →
        ∃ rows, T = Row.table rows ∧ rows.take j = e.rows program input j) ∧
    (e.iterations program input ≤ j ∨ (∃ N, given.maxSteps.or e.maxSteps = some N ∧ N < j) →
      ∃ R T, e.Records given program input R T ∧ e.Records given.uncancelled program input R T) := by
  constructor
  · intro hlt hlimit
    have hbusy := lt_iterations_iff.mp hlt
    refine ⟨records_cancelled hbefore hseen hbusy hlimit, length_rows_of_busy hbusy, ?_, ?_⟩
    · obtain ⟨t, c, hr, -⟩ := hbusy
      exact ⟨_, progress_eq hr (free_of_le given.neverCancels_uncancelled hlimit) (hasRoom_unbounded _), rfl⟩
    · intro R T hT
      rcases (records_iff given.neverCancels_uncancelled).mp hT with
        ⟨n, r, hr, -, -, rfl⟩ | ⟨N, hN, -, -, rfl⟩
      · exact ⟨_, rfl, take_rows (hr.lt_of_busy hbusy).le⟩
      · exact ⟨_, rfl, take_rows (hlimit N hN)⟩
  · intro h
    rcases halts_or_busy (e.code program) (e.initial input) (given.maxSteps.or e.maxSteps) with
      ⟨n, r, hr, hn⟩ | ⟨N, hN, hbusy⟩ | ⟨hmax, hbusy⟩
    · apply records_both_of_halts hbefore hr _ hn
      rcases h with hle | ⟨N, hN, hlt⟩
      · rwa [iterations_of_halts hr, Nat.cast_le] at hle
      · exact (hn N hN).trans hlt.le
    · apply records_both_of_limit hbefore hN _ hbusy
      rcases h with hle | ⟨N', hN', hlt⟩
      · have := (lt_iterations_iff.mpr hbusy).trans_le hle
        rwa [Nat.cast_lt] at this
      · rw [hN] at hN'; cases hN'
        exact hlt
    · -- without an end and a limit, every check is reached
      rcases h with hle | ⟨N, hN, -⟩
      · exact absurd (lt_iterations_iff.mpr (hbusy j)) hle.not_gt
      · rw [hmax] at hN; cases hN

theorem cancellation_cuts_at_limit :
    let given : Controls := { maxSteps := some 2, cancelled := fun k _ => decide (2 ≤ k) }
    standard.Records given "+[]" "" (.error .cancelled) (Row.table (standard.rows "+[]" "" 2)) := by
  intro given
  have hbusy : Busy (standard.code "+[]") (standard.initial "") 2 :=
    ⟨_, ']', .step rfl rfl (.step rfl rfl (.refl _)), rfl⟩
  have hbefore : ∀ k < 2, given.cancelled k (standard.record "+[]" "" k) = false := by
    intro k hk
    exact decide_eq_false (by omega)
  have hlimit : ∀ N, given.maxSteps.or standard.maxSteps = some N → 2 ≤ N := by
    intro N hN
    cases hN
    decide
  exact ((cancellation_cuts standard given "+[]" "" 2 hbefore rfl).1 (lt_iterations_iff.mpr hbusy) hlimit).1

end Engine

end Brainfuck
