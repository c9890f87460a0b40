import Brainfuck.Instruction

/-!
# Matching brackets

The partner of every bracket, found in one pass from left to right. The pass
keeps the places of the brackets that are open, innermost first; a closing
bracket takes the first of them for its partner. A bracket that finds none has
no partner.
-/

namespace Brainfuck

structure BracketScan where
  /-- The places of the opening brackets that still wait for a partner, innermost first. -/
  waiting : List Nat
  /-- For every place passed, the place of the partner of the bracket there. -/
  partners : Array (Option Nat)

namespace BracketScan

def start : BracketScan :=
  { waiting := [], partners := #[] }

/-- Passes one character, whose place is the number of places passed before. -/
def next (s : BracketScan) (c : Char) : BracketScan :=
  let place := s.partners.size
  match Instruction.ofChar? c with
  | some .openLoop => { waiting := place :: s.waiting, partners := s.partners.push none }
  | some .closeLoop =>
    match s.waiting with
    | [] => { s with partners := s.partners.push none }
    | opening :: waiting =>
      { waiting, partners := (s.partners.setIfInBounds opening (some place)).push (some opening) }
  | _ => { s with partners := s.partners.push none }

end BracketScan

/-- The partners of the brackets of a text. -/
structure Brackets where
  /-- For every place of the text, the place of the partner of the bracket there. -/
  partners : Array (Option Nat)

namespace Brackets

def ofList (text : List Char) : Brackets :=
  { partners := (text.foldl BracketScan.next BracketScan.start).partners }

/-- The partner of the bracket at a place. There is none where the bracket has no
partner, where no bracket stands, and outside the text. -/
def partner? (b : Brackets) (place : Nat) : Option Nat :=
  b.partners[place]?.join

end Brackets

end Brainfuck
