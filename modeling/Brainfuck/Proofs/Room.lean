import Brainfuck.Proofs.Record
import Mathlib.Order.Nat

/-!
# Sinks that run full

A record changes nothing as long as there is room for it. A sink of bounded room that is too
small for the record ends the execution at the row that brings the first byte too many, with
the bytes before it kept (`Engine.full_sink_cuts`). Every row has a byte at least, so no
execution goes on forever when it is recorded in such a sink.
-/

namespace Brainfuck

/-! ## Bytes -/

theorem Row.length_le_utf8ByteSize_table (rows : List Row) :
    rows.length ≤ (Row.table rows).utf8ByteSize := by
  have hjoin : rows.length ≤ (String.join (rows.map Row.render)).utf8ByteSize := by
    induction rows with
    | nil => simp
    | cons r rows ih =>
      have hpos : 0 < r.render.utf8ByteSize :=
        Nat.pos_of_ne_zero fun h => r.render_ne_empty (String.utf8ByteSize_eq_zero_iff.mp h)
      simp
      omega
  unfold Row.table
  rw [String.utf8ByteSize_append]
  omega

theorem extract_toUTF8_append {text : String} {room : Nat} (h : room ≤ text.utf8ByteSize) (more : String) :
    (text ++ more).toUTF8.extract 0 room = text.toUTF8.extract 0 room := by
  have hsize : text.toByteArray.size = text.utf8ByteSize := rfl
  have hempty : more.toByteArray.extract (0 - text.toByteArray.size) (room - text.toByteArray.size) =
      ByteArray.empty := by
    rw [ByteArray.extract_eq_empty_iff]
    omega
  unfold String.toUTF8
  rw [String.toByteArray_append, ByteArray.extract_append, hempty, ByteArray.append_empty]

theorem extract_toUTF8_of_le {text : String} {room : Nat} (h : text.utf8ByteSize ≤ room) :
    text.toUTF8.extract 0 room = text.toUTF8 := by
  have hmax : max room text.toUTF8.size = room := Nat.max_eq_left h
  have := ByteArray.extract_zero_max_size (a := text.toUTF8) (i := room)
  rwa [hmax] at this

namespace Sink

theorem bytes_bounded (room : Nat) (fault text : String) :
    ((bounded room fault).write text).bytes = text.toUTF8.extract 0 room := by
  simp [bounded, bytes, write]

theorem isFull_bounded (room : Nat) (fault text : String) :
    ((bounded room fault).write text).isFull = decide (room < text.utf8ByteSize) := by
  simp [bounded, isFull, write]

end Sink

theorem hasRoom_bounded_iff {room : Nat} {fault text : String} :
    HasRoom (some (Sink.bounded room fault)) text ↔ text.utf8ByteSize ≤ room := by
  simp [HasRoom, Sink.isFull_bounded]

namespace Engine

/-- The execution comes to `result`, and a sink with room for `room` bytes then holds `bytes`. -/
def Keeps (e : Engine) (given : Controls) (room : Nat) (fault program input : String)
    (result : Except RunError String) (bytes : ByteArray) : Prop :=
  ∃ sink, e.Ends given (some (Sink.bounded room fault)) program input { result, sink := some sink } ∧
    sink.bytes = bytes

section
variable {e : Engine} {given : Controls} {program input : String} {room : Nat}

theorem keeps_of_ends {fault record : String} {result : Except RunError String}
    (h : e.Ends given (some (Sink.bounded room fault)) program input
      { result, sink := some ((Sink.bounded room fault).write record) }) :
    e.Keeps given room fault program input result (record.toUTF8.extract 0 room) :=
  ⟨_, h, Sink.bytes_bounded room fault record⟩

/-! ## Enough room -/

theorem keeps_of_records (hgiven : given.NeverCancels) {R : Except RunError String} {T : String}
    (h : e.Records given program input R T) (hT : T.utf8ByteSize ≤ room) (fault : String) :
    e.Keeps given room fault program input R T.toUTF8 := by
  rw [← extract_toUTF8_of_le hT]
  apply keeps_of_ends
  rw [records_iff hgiven] at h
  rcases h with ⟨n, r, hr, hn, rfl, rfl⟩ | ⟨N, hN, hbusy, rfl, rfl⟩
  · exact ends_of_halts hr (free_of_le hgiven hn) (hasRoom_bounded_iff.mpr hT)
  · exact ends_of_limit hgiven hN hbusy (hasRoom_bounded_iff.mpr hT)

/-- A recorded execution takes as many steps as it writes rows, and so does the one that is not
recorded. -/
theorem endsAfter_of_records (hgiven : given.NeverCancels) {R : Except RunError String} {T : String}
    (h : e.Records given program input R T) :
    ∃ rows, T = Row.table rows ∧ e.rows program input rows.length = rows ∧
      e.EndsAfter given none program input rows.length { result := R, sink := none } := by
  rw [records_iff hgiven] at h
  rcases h with ⟨n, r, hr, hn, rfl, rfl⟩ | ⟨N, hN, hbusy, rfl, rfl⟩
  · exact ⟨e.rows program input n, rfl, rows_length_rows,
      endsAfter_of_halts hr (free_of_le hgiven hn) (hasRoom_none _)⟩
  · refine ⟨e.rows program input N, rfl, rows_length_rows, ?_⟩
    obtain ⟨t, c, ht, hc⟩ := hbusy
    rw [length_rows ht]
    exact endsAfter_of_limit hgiven hN ⟨t, c, ht, hc⟩ (hasRoom_none _)

theorem ends_iff_records (hgiven : given.NeverCancels) {R : Except RunError String} :
    e.Ends given none program input { result := R, sink := none } ↔ ∃ T, e.Records given program input R T := by
  constructor
  · intro h
    rw [ends_iff hgiven fun n => hasRoom_none _] at h
    rcases h with ⟨n, r, hr, hn, heq⟩ | ⟨N, hN, hbusy, heq⟩
    · cases heq
      exact ⟨_, (records_iff hgiven).mpr (Or.inl ⟨n, r, hr, hn, rfl, rfl⟩)⟩
    · cases heq
      exact ⟨_, (records_iff hgiven).mpr (Or.inr ⟨N, hN, hbusy, rfl, rfl⟩)⟩
  · intro h
    obtain ⟨T, hT⟩ := h
    obtain ⟨rows, -, -, hends⟩ := endsAfter_of_records hgiven hT
    exact hends.ends

/-! ## Too little room -/

structure Overflows (e : Engine) (given : Controls) (program input : String) (room n : Nat) : Prop where
  allowed : ∀ N, given.maxSteps.or e.maxSteps = some N → n ≤ N
  reached : ∃ t, Reaches (e.code program) n (e.initial input) t
  tooLong : room < (e.record program input n).utf8ByteSize

theorem exists_overflows (hgiven : given.NeverCancels)
    (h : ∀ R T, e.Records given program input R T → room < T.utf8ByteSize) :
    ∃ n, e.Overflows given program input room n := by
  rcases halts_or_busy (e.code program) (e.initial input) (given.maxSteps.or e.maxSteps) with
    ⟨n, r, hr, hn⟩ | ⟨N, hN, hbusy⟩ | ⟨hmax, hbusy⟩
  · have hlong := h _ _ ((records_iff hgiven).mpr (Or.inl ⟨n, r, hr, hn, rfl, rfl⟩))
    obtain ⟨t, k, ht, ⟨-, -, rfl⟩ | ⟨c, u, hc, ha, -, rfl⟩⟩ := hr.exists_last
    · exact ⟨_, hn, ⟨t, ht⟩, hlong⟩
    · -- the step that fails has no row
      rw [record, rows_fail ht hc ha] at hlong
      exact ⟨k, fun N hN => Nat.le_of_succ_le (hn N hN), ⟨t, ht⟩, hlong⟩
  · have hlong := h _ _ ((records_iff hgiven).mpr (Or.inr ⟨N, hN, hbusy, rfl, rfl⟩))
    obtain ⟨t, c, ht, -⟩ := hbusy
    refine ⟨N, ?_, ⟨t, ht⟩, hlong⟩
    intro N' hN'
    rw [hN] at hN'; cases hN'
    exact Nat.le_refl N
  · -- every row has a byte, so as many rows as there are bytes of room are enough
    obtain ⟨t, c, ht, -⟩ := hbusy (room + 1)
    refine ⟨room + 1, ?_, ⟨t, ht⟩, ?_⟩
    · intro N hN
      rw [hmax] at hN; cases hN
    · have := Row.length_le_utf8ByteSize_table (e.rows program input (room + 1))
      rw [length_rows ht] at this
      exact this

theorem Overflows.writes (hgiven : given.NeverCancels) {n : Nat}
    (h : e.Overflows given program input room n) :
    e.Writes given program input n (e.record program input n) := by
  obtain ⟨t, ht⟩ := h.reached
  exact ⟨_, progress_eq ht (free_of_le hgiven h.allowed) (hasRoom_unbounded _), rfl⟩

theorem Overflows.extract_eq (hgiven : given.NeverCancels) {n : Nat}
    (h : e.Overflows given program input room n) {R : Except RunError String} {T : String}
    (hT : e.Records given program input R T) :
    T.toUTF8.extract 0 room = (e.record program input n).toUTF8.extract 0 room := by
  have hle : ∃ m, n ≤ m ∧ T = e.record program input m := by
    rw [records_iff hgiven] at hT
    rcases hT with ⟨m, r, hr, -, -, rfl⟩ | ⟨N, hN, -, -, rfl⟩
    · obtain ⟨t, ht⟩ := h.reached
      obtain ⟨k, rfl, -⟩ := ht.halts_iff.mp hr
      exact ⟨_, Nat.le_add_left .., rfl⟩
    · exact ⟨N, h.allowed N hN, rfl⟩
  obtain ⟨m, hm, rfl⟩ := hle
  obtain ⟨more, hmore⟩ : ∃ more, e.record program input m = e.record program input n ++ more :=
    record_append_of_le hm
  rw [hmore, extract_toUTF8_append h.tooLong.le]

/-- The row that overflows first is where the execution ends. -/
theorem Overflows.keeps (hgiven : given.NeverCancels) {n : Nat}
    (h : e.Overflows given program input room n)
    (hfirst : ∀ k < n, ¬ e.Overflows given program input room k) (fault : String) :
    ∃ ip, e.Keeps given room fault program input (.error (.trace ip fault))
        ((e.record program input n).toUTF8.extract 0 room) ∧
      ((n = 0 ∧ ip = 0) ∨
        ∃ k row, n = k + 1 ∧ e.rows program input n = e.rows program input k ++ [row] ∧ ip = row.ip ∧
          (e.record program input k).utf8ByteSize ≤ room) := by
  cases n with
  | zero =>
    refine ⟨0, ?_, Or.inl ⟨rfl, rfl⟩⟩
    have hfull : ((Sink.bounded room fault).write Row.header).isFull = true := by
      rw [Sink.isFull_bounded, decide_eq_true_iff, ← record_zero]
      exact h.tooLong
    apply keeps_of_ends
    rw [record_zero]
    exact ends_of_full_header hfull
  | succ k =>
    obtain ⟨t, ht⟩ := h.reached
    obtain ⟨u, c, a, hu, -⟩ := ht.exists_snoc
    have hfits : (e.record program input k).utf8ByteSize ≤ room := by
      apply Nat.le_of_not_lt
      intro hlt
      exact hfirst k (Nat.lt_succ_self k) ⟨fun N hN => Nat.le_of_succ_le (h.allowed N hN), ⟨u, hu⟩, hlt⟩
    have hfull : ((Sink.bounded room fault).write (e.record program input (k + 1))).isFull = true := by
      rw [Sink.isFull_bounded, decide_eq_true_iff]
      exact h.tooLong
    have hfree : e.Free given (some (Sink.bounded room fault)) program input (k + 1) :=
      free_of_le hgiven h.allowed
    obtain ⟨row, hrow, hends⟩ := ends_of_full ht hfree (hasRoom_bounded_iff.mpr hfits) hfull
    exact ⟨row.ip, keeps_of_ends hends, Or.inr ⟨k, row, rfl, hrow, rfl, hfits⟩⟩

end

/-- **A full sink cuts.** The record makes no difference to the result, and has a row for every step
that is completed. A sink with room for the whole record holds it in the end. Any other sink ends the
execution at the row that brings the first byte too many, or at the header, and holds the bytes before;
so there is an end in any case. -/
theorem full_sink_cuts (e : Engine) (given : Controls) (hgiven : given.NeverCancels)
    (program input : String) (room : Nat) (fault : String) :
    (∀ R, e.Ends given none program input { result := R, sink := none } ↔
      ∃ T, e.Records given program input R T) ∧
    (∀ R T, e.Records given program input R T →
      ∃ rows, T = Row.table rows ∧ e.rows program input rows.length = rows ∧
        e.EndsAfter given none program input rows.length { result := R, sink := none }) ∧
    (∀ R T, e.Records given program input R T → T.utf8ByteSize ≤ room →
      e.Keeps given room fault program input R T.toUTF8) ∧
    ((∀ R T, e.Records given program input R T → room < T.utf8ByteSize) →
      ∃ n ip, let T := Row.table (e.rows program input n)
        e.Keeps given room fault program input (.error (.trace ip fault)) (T.toUTF8.extract 0 room) ∧
        e.Writes given program input n T ∧ room < T.utf8ByteSize ∧
        ((n = 0 ∧ ip = 0) ∨
          ∃ k row, n = k + 1 ∧ e.rows program input n = e.rows program input k ++ [row] ∧ ip = row.ip ∧
            (Row.table (e.rows program input k)).utf8ByteSize ≤ room) ∧
        ∀ R T', e.Records given program input R T' → T'.toUTF8.extract 0 room = T.toUTF8.extract 0 room) ∧
    ∃ R bytes, e.Keeps given room fault program input R bytes := by
  have hcut : (∀ R T, e.Records given program input R T → room < T.utf8ByteSize) →
      ∃ n, e.Overflows given program input room n ∧ ∀ k < n, ¬ e.Overflows given program input room k := by
    intro h
    classical
    have hex := exists_overflows hgiven h
    exact ⟨Nat.find hex, Nat.find_spec hex, fun k hk => Nat.find_min hex hk⟩
  refine ⟨fun R => ends_iff_records hgiven, fun R T hT => endsAfter_of_records hgiven hT,
    fun R T hT hle => keeps_of_records hgiven hT hle fault, ?_, ?_⟩
  · intro h
    obtain ⟨n, hn, hfirst⟩ := hcut h
    obtain ⟨ip, hkeeps, hplace⟩ := hn.keeps hgiven hfirst fault
    exact ⟨n, ip, hkeeps, hn.writes hgiven, hn.tooLong, hplace, fun R T' hT' => hn.extract_eq hgiven hT'⟩
  · by_cases h : ∀ R T, e.Records given program input R T → room < T.utf8ByteSize
    · obtain ⟨n, hn, hfirst⟩ := hcut h
      obtain ⟨ip, hkeeps, -⟩ := hn.keeps hgiven hfirst fault
      exact ⟨_, _, hkeeps⟩
    · simp only [not_forall, not_lt] at h
      obtain ⟨R, T, hT, hle⟩ := h
      exact ⟨R, _, keeps_of_records hgiven hT hle fault⟩

theorem full_sink_cuts_row :
    let stored := Row.header ++ "0    | 0   | 0   | 0    |  +    | Increment cell[0] from 0 to 1\n"
      ++ "1    | 1   | "
    standard.Keeps Controls.none 200 "full" "+[]" "" (.error (.trace 1 "full")) stored.toUTF8 := by
  intro stored
  have hstored : stored.utf8ByteSize = 200 := by decide +kernel
  have hone : (standard.record "+[]" "" 1).utf8ByteSize ≤ 200 := by decide +kernel
  have hrows : standard.rows "+[]" "" 2 =
      standard.rows "+[]" "" 1 ++ [⟨1, 1, 0, 1, '[', "Enter loop (cell != 0)"⟩] := by decide
  have htwo : standard.record "+[]" "" 2 = stored ++ "0   | 1    |  [    | Enter loop (cell != 0)\n" := by
    decide +kernel
  have hlong : ∀ n, 2 ≤ n → 200 < (standard.record "+[]" "" n).utf8ByteSize := by
    intro n hn
    apply Nat.lt_of_lt_of_le _ (utf8ByteSize_record_mono hn)
    rw [htwo, String.utf8ByteSize_append, hstored]
    decide
  have hbusy : Busy (standard.code "+[]") (standard.initial "") 2 :=
    ⟨_, ']', .step rfl rfl (.step rfl rfl (.refl _)), rfl⟩
  obtain ⟨-, -, -, hcut, -⟩ := full_sink_cuts standard Controls.none Controls.neverCancels_none "+[]" "" 200 "full"
  obtain ⟨n, ip, hkeeps, -, hbyte, hplace, -⟩ := hcut (by
    intro R T hT
    rcases (records_iff Controls.neverCancels_none).mp hT with ⟨n, r, hr, -, -, rfl⟩ | ⟨N, hN, -⟩
    · exact hlong n (hr.busy_iff.mp hbusy).le
    · cases hN)
  rcases hplace with ⟨rfl, rfl⟩ | ⟨k, row, rfl, hrow, rfl, hfits⟩
  · exact absurd (hbyte.trans_le (utf8ByteSize_record_mono (Nat.zero_le 1))) hone.not_gt
  · -- the first row fits and the first two do not, so the cut is in the second
    have hk : k = 1 := by
      have hlt : k < 2 := Nat.lt_of_not_le fun hle => absurd (hlong k hle) hfits.not_gt
      have hne : k ≠ 0 := by
        rintro rfl
        exact absurd hbyte hone.not_gt
      omega
    subst hk
    cases List.append_cancel_left (hrow.symm.trans hrows)
    change standard.Keeps _ _ _ _ _ _ ((standard.record "+[]" "" 2).toUTF8.extract 0 200) at hkeeps
    rwa [htwo, extract_toUTF8_append hstored.ge, extract_toUTF8_of_le hstored.le] at hkeeps

end Engine

end Brainfuck
