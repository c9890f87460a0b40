import Brainfuck.Diagnostic
import Brainfuck.Proofs.BracketErrors

/-!
# Where the caret stands

A diagnostic shows at most 65 characters of the program, and the caret is in the column of the one
at the place it is about (`Diagnostic.window_under_pointer`). When a run fails on a bracket, the
place is in the program and that bracket stands there (`Engine.getElem?_of_ends_unmatched`).
-/

namespace Brainfuck

/-! ## The window -/

namespace Diagnostic
variable {program : List Char} {place : Nat}

theorem getElem?_window (program : List Char) (place k : Nat) :
    (window program place)[k]? =
      if place - reach + k < min (place + reach + 1) program.length then program[place - reach + k]?
      else none := by
  unfold window
  rw [List.getElem?_drop, List.getElem?_take]
  by_cases hlen : place - reach + k < program.length
  · simp [hlen]
  · simp [hlen]

theorem length_window_le (program : List Char) (place : Nat) :
    (window program place).length ≤ 2 * reach + 1 := by
  simp only [window, List.length_drop, List.length_take]
  omega

theorem window_under_pointer (h : place < program.length) :
    (window program place)[min place reach]? = program[place]? := by
  have hcolumn : place - reach + min place reach = place := by omega
  rw [getElem?_window, hcolumn, if_pos]
  omega

def layout (headline slice caret : String) : String :=
  headline ++ "\n  " ++ slice ++ "\n  " ++ caret ++ "\n"

/-- In either style the text is a headline, a slice of the program, and a caret in the column of the
character at `place`. Colour adds a bold headline and a bold red caret, and nothing else. -/
structure PointsAt (text : Style → String) (title : String) (program : List Char) (place : Nat)
    (slice : List Char) : Prop where
  plain : text .plain =
    layout (title ++ " at instruction " ++ Text.decimal place) (String.ofList slice)
      (String.ofList (List.replicate (min place 32) ' ' ++ ['^']))
  coloured : text .coloured =
    layout ("\x1b[1m" ++ (title ++ " at instruction " ++ Text.decimal place) ++ "\x1b[0m") (String.ofList slice)
      ("\x1b[1;31m" ++ String.ofList (List.replicate (min place 32) ' ' ++ ['^']) ++ "\x1b[0m")
  shown : ∀ k, slice[k]? =
    if place - 32 + k < min (place + 33) program.length then program[place - 32 + k]? else none
  short : slice.length ≤ 65
  caret : place < program.length → slice[min place 32]? = program[place]?

theorem atPlace_pointsAt (title program : String) (place : Nat) :
    PointsAt (fun style => atPlace style title program place) title program.toList place
      (window program.toList place) where
  plain := rfl
  coloured := rfl
  shown := getElem?_window program.toList place
  short := length_window_le program.toList place
  caret := window_under_pointer

end Diagnostic

/-! ## The bracket that is meant -/

theorem Verdict.getElem?_place {text : List Char} {zero : Nat → Prop} {u : Unmatched}
    (h : Verdict text zero (.error u)) : text[u.place]? = some u.bracket.symbol := by
  cases h with
  | closing hc => exact hc
  | leftOut _ hi => exact getElem?_of_mem_openAt hi
  | leftOpen _ hopen =>
    apply getElem?_of_mem_openAt (k := text.length)
    rw [hopen]
    exact List.mem_cons_self ..

theorem Run.complete_ne_unmatched {run : Run} {c : Char} {a : Action} {u : Unmatched} {sink : Option Sink} :
    run.complete c a ≠ .ended { result := .error (.unmatched u), sink } := by
  intro h
  unfold Run.complete at h
  split at h
  · cases h
  · simp only at h
    split at h <;> cases h

theorem Run.halts_of_next_unmatched {code : Code} {controls : Controls} {run : Run} {u : Unmatched}
    {sink : Option Sink} (h : run.next code controls = .ended { result := .error (.unmatched u), sink }) :
    ∃ n, Halts code run.state n (.error u) := by
  unfold Run.next at h
  split at h
  · rename_i hc
    cases hf : run.state.finish with
    | ok o => rw [hf] at h; cases h
    | error u' => rw [hf] at h; cases h; exact ⟨0, .finish hc hf⟩
  · rename_i c hc
    split at h
    · rename_i cause hr
      cases h
      -- nothing that refuses a step is a bracket
      unfold Run.refusal? at hr
      (repeat' split at hr) <;> cases hr
    · split at h
      · rename_i ha
        cases h
        exact ⟨1, .fail hc ha⟩
      · exact absurd h Run.complete_ne_unmatched

namespace Engine
variable {e : Engine} {given : Controls} {sink sink' : Option Sink} {program input : String} {u : Unmatched}

theorem halts_of_ends_unmatched
    (h : e.Ends given sink program input { result := .error (.unmatched u), sink := sink' }) :
    ∃ n, Halts (e.code program) (e.initial input) n (.error u) := by
  obtain ⟨n, hn⟩ := h
  have hended := ending?_eq_some_iff.mp hn
  unfold progress at hended
  cases hs : Progress.start (e.initial input) sink with
  | ended ending =>
    rw [hs, Progress.advance_ended] at hended
    cases hended
    cases sink with
    | none => cases hs
    | some s =>
      simp only [Progress.start] at hs
      split at hs <;> cases hs
  | running first =>
    rw [hs] at hended
    obtain ⟨k, last, hk, hlast⟩ := exists_running_of_ended hended
    rw [← hs] at hk
    obtain ⟨m, hm⟩ := Run.halts_of_next_unmatched hlast
    exact ⟨_, (reaches_of_progress hk).1.halts hm⟩

theorem getElem?_of_ends_unmatched
    (h : e.Ends given sink program input { result := .error (.unmatched u), sink := sink' }) :
    program.toList[u.place]? = some u.bracket.symbol := by
  obtain ⟨n, hn⟩ := halts_of_ends_unmatched h
  exact (verdict_of_halts (tracks_initial ..) rfl hn).getElem?_place

end Engine

/-- **Where the caret stands.** Every diagnostic about a place of a program points at it. When an execution
fails on a bracket, the place is one of the program, and in the column of the caret is that bracket. -/
theorem Diagnostic.caret_under_place :
    (∀ (title program : String) (place : Nat), place ≤ 2 ^ 64 - 34 →
      place + reach + 1 < 2 ^ 64 ∧
        ∃ slice, PointsAt (fun style => atPlace style title program place) title program.toList place slice) ∧
    ∀ (e : Engine) (given : Controls) (sink sink' : Option Sink) (program input : String) (u : Unmatched),
      e.Ends given sink program input { result := .error (.unmatched u), sink := sink' } →
        u.place < program.toList.length ∧
          ∀ name, ∃ title slice,
            PointsAt (fun style => (RunError.unmatched u).diagnostic style name program) title program.toList
              u.place slice ∧
            slice[min u.place 32]? = some (match u.bracket with | .opening => '[' | .closing => ']') := by
  apply And.intro
  · intro title program place hplace
    refine ⟨?_, _, atPlace_pointsAt title program place⟩
    unfold reach
    omega
  · intro e given sink sink' program input u h
    have hbracket := Engine.getElem?_of_ends_unmatched h
    obtain ⟨hlt, -⟩ := List.getElem?_eq_some_iff.mp hbracket
    refine ⟨hlt, fun name => ?_⟩
    refine ⟨_, window program.toList u.place, atPlace_pointsAt _ program u.place, ?_⟩
    exact (window_under_pointer hlt).trans hbracket

theorem Diagnostic.caret_under_place_left_open :
    3 ≤ 2 ^ 64 - 34 ∧
      (∃ slice, PointsAt (fun style => atPlace style "oops" "+.-[+" 3) "oops" "+.-[+".toList 3 slice) ∧
      Engine.standard.Returns "+.-[+" "" (.error (.unmatched { place := 3, bracket := .opening })) ∧
      ∃ title slice,
        PointsAt (fun style => (RunError.unmatched { place := 3, bracket := .opening }).diagnostic style
          (some "tapebf") "+.-[+") title "+.-[+".toList 3 slice ∧ slice[3]? = some '[' := by
  have hends : Engine.standard.Returns "+.-[+" "" (.error (.unmatched { place := 3, bracket := .opening })) :=
    ⟨6, rfl⟩
  refine ⟨by decide, (caret_under_place.1 _ _ 3 (by decide)).2, hends, ?_⟩
  exact (caret_under_place.2 _ _ _ _ _ _ _ hends).2 (some "tapebf")

end Brainfuck
