/-!
# Choices written by name

A finite choice is offered to people as a list of names. Reading a name back
finds the first member that bears it, either letter for letter or with the
case of the letters `A` to `Z` ignored.
-/

namespace Brainfuck

/-- A finite choice whose members have a written name each. -/
class Named (α : Type) where
  /-- The members, in the order in which they are offered. -/
  all : List α
  /-- The name of a member. -/
  name : α → String

namespace Named

/-- A text with the letters `A` to `Z` made small; every other character stays. -/
def fold (text : List Char) : List Char :=
  text.map Char.toLower

/-- The member called exactly `text`. -/
def ofName? {α : Type} [Named α] (text : List Char) : Option α :=
  all.find? fun a => decide ((name a).toList = text)

/-- The member called `text` when the case of ASCII letters does not matter. -/
def ofFoldedName? {α : Type} [Named α] (text : List Char) : Option α :=
  all.find? fun a => decide (fold (name a).toList = fold text)

/-- What is said of a text that names no member. -/
def refusal (text : String) : String :=
  "invalid variant: " ++ text

/-! ## Reading back a name -/

theorem fold_name_ofFoldedName? {α : Type} [Named α] {text : List Char} {a : α}
    (h : ofFoldedName? text = some a) : fold (name a).toList = fold text := by
  simpa using List.find?_some h

end Named

end Brainfuck
