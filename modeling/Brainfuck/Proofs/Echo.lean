import Brainfuck.Proofs.Control
import Brainfuck.Proofs.Returns

/-!
# The program that echoes its input

Reading and writing in turns gives back the input, one character a round. When the input is at its end
the cell keeps the last character, so that one is repeated. `Echoing` says where the machine is
after some reads and writes; it is kept by a read and by a write (`Echoing.read`,
`Echoing.write`), and so by whole rounds (`exists_echoing`).
-/

namespace Brainfuck

def echo (n : Nat) : String :=
  String.ofList (List.replicate n [',', '.']).flatten

theorem length_toList_echo (n : Nat) : (echo n).toList.length = 2 * n := by
  simp [echo, Nat.mul_comm]

theorem getElem?_echo {k n : Nat} (h : k < n) :
    (echo n).toList[k + k]? = some ',' ∧ (echo n).toList[k + 1 + k]? = some '.' := by
  rw [echo, String.toList_ofList]
  induction n generalizing k with
  | zero => exact absurd h (Nat.not_lt_zero k)
  | succ n ih =>
    rw [List.replicate_succ, List.flatten_cons]
    cases k with
    | zero => exact ⟨rfl, rfl⟩
    | succ k =>
      have hread : k + 1 + (k + 1) = k + k + 2 := by omega
      have hwrite : k + 1 + 1 + (k + 1) = k + 1 + k + 2 := by omega
      rw [hread, hwrite]
      simpa using ih (Nat.lt_of_succ_lt_succ h)

/-! ## Code points -/

/-- The code point of the character with number `i`, or of the last one when there are fewer; `0` when there
is none at all. -/
def codePointAt (input : List Char) (i : Nat) : Nat :=
  (input[min i (input.length - 1)]?.map Char.toNat).getD 0

def lastRead (input : List Char) (k : Nat) : Nat :=
  ((input.take k).getLast?.map Char.toNat).getD 0

def echoed (w : CellWidth) (input : List Char) (n : Nat) : List Char :=
  (List.range n).map fun i => cellChar (w.reduce (codePointAt input i))

/-- The character has the code point `v`, or it stands for a surrogate, which is no character. -/
def PrintsAs (v : Nat) (c : Char) : Prop :=
  if 0xD800 ≤ v ∧ v ≤ 0xDFFF then c = '\uFFFD' else c.toNat = v

section
variable {input : List Char} {k : Nat}

theorem lastRead_succ_of_nil (h : input.drop k = []) : lastRead input (k + 1) = lastRead input k := by
  have hk : input.length ≤ k := List.drop_eq_nil_iff.mp h
  unfold lastRead
  rw [List.take_of_length_le hk, List.take_of_length_le (Nat.le_succ_of_le hk)]

theorem lastRead_succ_of_cons {c : Char} {rest : List Char} (h : input.drop k = c :: rest) :
    lastRead input (k + 1) = c.toNat := by
  have hc : input[k]? = some c := by
    rw [← List.head?_drop, h]
    rfl
  simp [lastRead, List.take_add_one, hc]

theorem codePointAt_of_getElem? {c : Char} (h : input[k]? = some c) : codePointAt input k = c.toNat := by
  have hk : k < input.length := (List.getElem?_eq_some_iff.mp h).1
  have hmin : min k (input.length - 1) = k := by omega
  simp [codePointAt, hmin, h]

theorem lastRead_succ (input : List Char) (k : Nat) : lastRead input (k + 1) = codePointAt input k := by
  by_cases hk : k < input.length
  · rw [lastRead_succ_of_cons (List.drop_eq_getElem_cons hk), codePointAt_of_getElem? (List.getElem?_eq_getElem hk)]
  · have hmin : min k (input.length - 1) = input.length - 1 := by omega
    unfold lastRead codePointAt
    rw [hmin, List.take_of_length_le (by omega), List.getLast?_eq_getElem?]

end

theorem echoed_succ (w : CellWidth) (input : List Char) (n : Nat) :
    echoed w input (n + 1) = echoed w input n ++ [cellChar (w.reduce (codePointAt input n))] := by
  simp [echoed, List.range_succ]

theorem cellChar_toNat (c : Char) : cellChar c.toNat = c := by
  have hvalid : c.toNat.isValidChar := c.valid
  rw [cellChar, if_pos hvalid, Char.ofNat_toNat]

theorem printsAs_cellChar {v : Nat} (h : v < 0x110000) : PrintsAs v (cellChar v) := by
  unfold PrintsAs cellChar
  by_cases hv : 0xD800 ≤ v ∧ v ≤ 0xDFFF
  · have hinvalid : ¬ v.isValidChar := by
      unfold Nat.isValidChar
      omega
    rw [if_pos hv, if_neg hinvalid]
  · have hvalid : v.isValidChar := by
      unfold Nat.isValidChar
      omega
    rw [if_neg hv, if_pos hvalid, Char.ofNat, dif_pos hvalid]
    rfl

theorem toNat_lt_bound (c : Char) : c.toNat < 0x110000 := by
  have hvalid : c.toNat.isValidChar := c.valid
  unfold Nat.isValidChar at hvalid
  omega

theorem codePointAt_lt (input : List Char) (i : Nat) : codePointAt input i < 0x110000 := by
  unfold codePointAt
  cases input[min i (input.length - 1)]? with
  | none => decide
  | some c => exact toNat_lt_bound c

/-! ## Rounds -/

structure Echoing (w : CellWidth) (input : List Char) (reads writes : Nat) (s : State) : Prop where
  ip : s.ip = reads + writes
  mode : s.mode = .running
  loops : s.loops = []
  width : s.tape.width = w
  rest : s.input = input.drop reads
  cell : s.tape.current = w.reduce (lastRead input reads)
  output : s.output.toList = echoed w input writes

section
variable {w : CellWidth} {input text : List Char} {r n : Nat} {s : State} {strategy : LoopStrategy}

theorem echoing_initial (cells : Nat) (w : CellWidth) (input : List Char) :
    Echoing w input 0 0 (State.initial (Tape.new cells w) input) where
  ip := rfl
  mode := rfl
  loops := rfl
  width := rfl
  rest := rfl
  cell := by simp [State.initial, Tape.new, lastRead]
  output := rfl

theorem Echoing.read (h : Echoing w input r n s) (hc : text[s.ip]? = some ',') :
    ∃ t, Reaches (Code.ofList strategy text) 1 s t ∧ Echoing w input (r + 1) n t := by
  have hip : s.ip + 1 = r + 1 + n := by
    have := h.ip
    omega
  cases hin : s.input with
  | nil =>
    -- nothing is left to read, and the cell stays as it is
    have hnil : input.drop r = [] := h.rest.symm.trans hin
    refine ⟨s.perform .readNothing, .single ((getElem?_text_ofList ..).trans hc) ?_, ?_⟩
    · rw [action_running h.mode rfl, State.instructionAction, hin]
    · refine ⟨hip, h.mode, h.loops, h.width, ?_, ?_, h.output⟩
      · show s.input = input.drop (r + 1)
        rw [hin, ← List.tail_drop, hnil, List.tail_nil]
      · rw [lastRead_succ_of_nil hnil]
        exact h.cell
  | cons c rest =>
    have hcons : input.drop r = c :: rest := h.rest.symm.trans hin
    refine ⟨s.perform (.read c), .single ((getElem?_text_ofList ..).trans hc) ?_, ?_⟩
    · rw [action_running h.mode rfl, State.instructionAction, hin]
    · refine ⟨hip, h.mode, h.loops, h.width, ?_, ?_, h.output⟩
      · show s.input.tail = input.drop (r + 1)
        rw [h.rest, List.tail_drop]
      · show s.tape.width.reduce c.toNat = _
        rw [h.width, lastRead_succ_of_cons hcons]

theorem Echoing.write (h : Echoing w input (n + 1) n s) (hc : text[s.ip]? = some '.') :
    ∃ t, Reaches (Code.ofList strategy text) 1 s t ∧ Echoing w input (n + 1) (n + 1) t := by
  refine ⟨s.perform (.write (cellChar s.tape.current)), .single ((getElem?_text_ofList ..).trans hc) ?_, ?_⟩
  · rw [action_running h.mode rfl, State.instructionAction]
  · refine ⟨?_, h.mode, h.loops, h.width, h.rest, h.cell, ?_⟩
    · show s.ip + 1 = n + 1 + (n + 1)
      rw [h.ip, Nat.add_assoc]
    · show (s.output.push (cellChar s.tape.current)).toList = _
      rw [String.toList_push, h.output, h.cell, lastRead_succ, echoed_succ]

/-- **Rounds.** By induction on their number, from the place of one to the next. -/
theorem exists_echoing (strategy : LoopStrategy) {k : Nat} (hk : k ≤ n) (h : Echoing w input 0 0 s) :
    ∃ t, Reaches (Code.ofList strategy (echo n).toList) (2 * k) s t ∧ Echoing w input k k t := by
  induction k with
  | zero => exact ⟨s, .refl s, h⟩
  | succ k ih =>
    obtain ⟨t, ht, hround⟩ := ih (Nat.le_of_succ_le hk)
    obtain ⟨hcomma, hdot⟩ := getElem?_echo hk
    rw [← hround.ip] at hcomma
    obtain ⟨u, hu, hread⟩ := hround.read hcomma
    rw [← hread.ip] at hdot
    obtain ⟨v, hv, hwrite⟩ := hread.write hdot
    exact ⟨v, (ht.trans hu).trans hv, hwrite⟩

theorem Echoing.halts (h : Echoing w input n n s) :
    Halts (Code.ofList strategy (echo n).toList) s 0 (.ok s.output) := by
  refine .finish ?_ ?_
  · rw [getElem?_text_ofList, List.getElem?_eq_none_iff, length_toList_echo, h.ip]
    omega
  · simp only [State.finish, h.mode, h.loops]

end

/-! ## Executions -/

theorem echoed_eq_self {w : CellWidth} {input : List Char} (h : ∀ c ∈ input, c.toNat ≤ w.mask) :
    echoed w input input.length = input := by
  apply List.ext_getElem?
  intro i
  unfold echoed
  rw [List.getElem?_map]
  by_cases hi : i < input.length
  · have hc := List.getElem?_eq_getElem hi
    have hmask := h _ (List.getElem_mem hi)
    rw [List.getElem?_range hi, hc, Option.map_some, codePointAt_of_getElem? hc, CellWidth.reduce_of_le_mask hmask,
      cellChar_toNat]
  · rw [List.getElem?_eq_none (by simpa using hi), List.getElem?_eq_none (Nat.le_of_not_lt hi), Option.map_none]

theorem toNat_le_mask_wide (c : Char) : c.toNat ≤ CellWidth.wide.mask :=
  Nat.le_trans (Nat.le_of_lt (toNat_lt_bound c)) (by decide)

theorem Engine.returns_echo (e : Engine) (strategy : LoopStrategy) (n : Nat) (input : String) :
    (e.adapt strategy none).Returns (echo n) input (.ok (String.ofList (echoed e.cellWidth input.toList n))) := by
  obtain ⟨t, ht, hend⟩ := exists_echoing strategy (Nat.le_refl n)
    (echoing_initial e.tapeCells e.cellWidth input.toList)
  have houtput : t.output = String.ofList (echoed e.cellWidth input.toList n) := by
    rw [← String.ofList_toList (s := t.output), hend.output]
  rw [← houtput]
  exact (returns_unlimited_iff rfl).mpr ⟨_, .ok t.output, ht.halts hend.halts, rfl⟩

-- the first of these characters leaves a surrogate in a cell of 16 bits
example : echoed .word ['𝠀', 'a'] 3 = ['\uFFFD', 'a', 'a'] := by decide

/-- **Reading and writing echoes the input.** After `n` rounds there are `n` characters. Each prints the reduced
code point of the input there, or of its last character once the input is at its end. With as
many rounds as characters the output is the input, if every character fits a cell; in wide cells
every character does. -/
theorem Engine.echo_returns (e : Engine) (strategy : LoopStrategy) (n : Nat) (input : String) :
    ∃ o, (e.adapt strategy none).Returns (echo n) input (.ok o) ∧ o.length = n ∧
      (∀ i c, o.toList[i]? = some c → PrintsAs (e.cellWidth.reduce (codePointAt input.toList i)) c) ∧
      (n = input.length → (∀ c ∈ input.toList, c.toNat ≤ e.cellWidth.mask) → o = input) ∧
      (n = input.length → e.cellWidth = .wide → o = input) := by
  have hself : n = input.length → (∀ c ∈ input.toList, c.toNat ≤ e.cellWidth.mask) →
      String.ofList (echoed e.cellWidth input.toList n) = input := by
    intro hn hmask
    rw [hn, ← String.length_toList, echoed_eq_self hmask, String.ofList_toList]
  refine ⟨_, e.returns_echo strategy n input, by simp [echoed], ?_, hself, ?_⟩
  · intro i c hi
    rw [String.toList_ofList, echoed, List.getElem?_map, Option.map_eq_some_iff] at hi
    obtain ⟨j, hj, rfl⟩ := hi
    obtain ⟨hlt, rfl⟩ := List.getElem?_eq_some_iff.mp hj
    rw [List.getElem_range]
    exact printsAs_cellChar (Nat.lt_of_le_of_lt (Nat.mod_le ..) (codePointAt_lt ..))
  · intro hn hwide
    apply hself hn
    rw [hwide]
    exact fun c _ => toNat_le_mask_wide c

theorem Engine.echo_returns_wide :
    ({ standard with cellWidth := .wide }.adapt .jumpTable none).Returns (echo 2) "é😀" (.ok "é😀") := by
  obtain ⟨o, ho, -, -, -, hself⟩ := echo_returns { standard with cellWidth := .wide } .jumpTable 2 "é😀"
  rw [hself (by decide) rfl] at ho
  exact ho

end Brainfuck
