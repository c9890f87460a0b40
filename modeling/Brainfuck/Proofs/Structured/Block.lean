import Mathlib.Data.List.Basic
import Mathlib.Tactic.Common

/-!
# Blocks

A text whose brackets are balanced is a block: a sequence of commands and loops, where the
body of a loop is a block again. `Block.parse` reads a text from its end, and
accepts exactly the texts that `Block.render` writes (`parse_eq_some_iff`). Every balanced
text is one of them (`exists_parse_of_balanced`).
-/

namespace Brainfuck

structure Command where
  symbol : Char
  symbol_ne : symbol ≠ '[' ∧ symbol ≠ ']'
deriving DecidableEq

inductive Block where
  | empty
  | command (k : Command) (rest : Block)
  | loop (body rest : Block)
deriving DecidableEq

namespace Block

def render : Block → List Char
  | empty => []
  | command k rest => k.symbol :: rest.render
  | loop body rest => '[' :: (body.render ++ ']' :: rest.render)

/-- Reads a text from its end: the block at its start, and the blocks behind the closing brackets
that are not opened in it. -/
def parseBack : List Char → Option (Block × List Block)
  | [] => some (empty, [])
  | c :: text =>
    match parseBack text with
    | none => none
    | some (block, behind) =>
      if hclose : c = ']' then
        some (empty, block :: behind)
      else if hopen : c = '[' then
        match behind with
        | [] => none
        | rest :: behind => some (loop block rest, behind)
      else
        some (command { symbol := c, symbol_ne := ⟨hopen, hclose⟩ } block, behind)

def parse (text : List Char) : Option Block :=
  match parseBack text with
  | some (block, []) => some block
  | _ => none

/-! ## Reading and writing -/

section
variable {text : List Char} {block : Block} {behind : List Block}

theorem parseBack_command (h : parseBack text = some (block, behind)) (k : Command) :
    parseBack (k.symbol :: text) = some (command k block, behind) := by
  rw [parseBack, h]
  simp only [dif_neg k.symbol_ne.1, dif_neg k.symbol_ne.2]

theorem parseBack_close (h : parseBack text = some (block, behind)) :
    parseBack (']' :: text) = some (empty, block :: behind) := by
  rw [parseBack, h]
  exact dif_pos rfl

theorem parseBack_open {rest : Block} (h : parseBack text = some (block, rest :: behind)) :
    parseBack ('[' :: text) = some (loop block rest, behind) := by
  rw [parseBack, h]
  rfl

theorem render_of_parseBack : ∀ {text : List Char} {block : Block} {behind : List Block},
    parseBack text = some (block, behind) →
      text = block.render ++ behind.flatMap fun b => ']' :: b.render
  | [], block, behind, h => by cases h; rfl
  | c :: text, block, behind, h => by
    rw [parseBack] at h
    split at h
    · cases h
    · rename_i inner outer hrest
      have ih := render_of_parseBack hrest
      split at h
      · rename_i hclose
        cases h
        rw [hclose, ih]; rfl
      · split at h
        · rename_i hopen
          split at h
          · cases h
          · cases h
            rw [hopen, ih]
            simp [render]
        · cases h
          rw [ih]; rfl

theorem parseBack_render (b : Block) (h : parseBack text = some (empty, behind)) :
    parseBack (b.render ++ text) = some (b, behind) := by
  induction b generalizing text behind with
  | empty => exact h
  | command k rest ih => exact parseBack_command (ih h) k
  | loop body rest ihb ihr =>
    have hrest := parseBack_close (ihr h)
    have hbody := ihb hrest
    have hloop := parseBack_open hbody
    simp only [render, List.cons_append, List.append_assoc]
    exact hloop

end

/-- **Reading is the inverse of writing.** -/
theorem parse_eq_some_iff {text : List Char} {block : Block} :
    parse text = some block ↔ block.render = text := by
  constructor
  · intro h
    unfold parse at h
    split at h
    · rename_i b hb
      cases h
      have := render_of_parseBack hb
      rw [List.flatMap_nil, List.append_nil] at this
      exact this.symm
    · cases h
  · rintro rfl
    have h : parseBack (block.render ++ []) = some (block, []) := parseBack_render block rfl
    rw [List.append_nil] at h
    unfold parse
    rw [h]

end Block

/-! ## Balanced texts -/

def Balanced (text : List Char) : Prop :=
  text.count '[' = text.count ']' ∧ ∀ k, (text.take k).count ']' ≤ (text.take k).count '['

instance (text : List Char) : Decidable (Balanced text) :=
  decidable_of_iff
    (text.count '[' = text.count ']' ∧
      ∀ k < text.length, (text.take k).count ']' ≤ (text.take k).count '[')
    (and_congr_right fun heq =>
      ⟨fun h k => (Nat.lt_or_ge k text.length).elim (h k)
        fun hk => by rw [List.take_of_length_le hk]; exact Nat.le_of_eq heq.symm, fun h k _ => h k⟩)

theorem Balanced.drop {text : List Char} (h : Balanced text) (k : Nat) :
    (text.drop k).count '[' ≤ (text.drop k).count ']' := by
  have h1 := h.1
  have h2 := h.2 k
  rw [← List.take_append_drop k text, List.count_append, List.count_append] at h1
  omega

theorem Block.exists_parseBack : ∀ {text : List Char},
    (∀ k, (text.drop k).count '[' ≤ (text.drop k).count ']') →
      ∃ block behind, parseBack text = some (block, behind) ∧
        behind.length + text.count '[' = text.count ']'
  | [], _ => ⟨empty, [], rfl, rfl⟩
  | c :: text, h => by
    obtain ⟨block, behind, hrest, hlen⟩ := exists_parseBack fun k => h (k + 1)
    have h0 := h 0
    rw [List.drop_zero, List.count_cons, List.count_cons] at h0
    by_cases hclose : c = ']'
    · subst hclose
      refine ⟨_, _, parseBack_close hrest, ?_⟩
      simp
      omega
    · by_cases hopen : c = '['
      · subst hopen
        simp at h0
        obtain ⟨rest, behind, rfl⟩ : ∃ rest bs, behind = rest :: bs := by
          cases behind with
          | nil => simp at hlen; omega
          | cons rest bs => exact ⟨rest, bs, rfl⟩
        refine ⟨_, _, parseBack_open hrest, ?_⟩
        simp at hlen ⊢
        omega
      · refine ⟨_, _, parseBack_command hrest ⟨c, hopen, hclose⟩, ?_⟩
        simp [hopen, hclose, hlen]

theorem Block.exists_parse_of_balanced {text : List Char} (h : Balanced text) :
    ∃ block, parse text = some block := by
  obtain ⟨block, behind, hb, hlen⟩ := exists_parseBack h.drop
  have hnil : behind = [] := List.eq_nil_of_length_eq_zero (by have := h.1; omega)
  subst hnil
  exact ⟨block, by unfold parse; rw [hb]⟩

end Brainfuck
