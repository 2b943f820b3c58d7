import Std.Data.ExtTreeMap
import TapeMachine.Symbol

/-!
# Tapes

A tape has a cell for every integer. Only the cells that hold something are kept, and a cell
that is not kept reads as the blank. A blank that was written is kept: its cell is occupied.

`Tape.ofString` lays a text out on a fresh tape.
-/

namespace TapeMachine

/-- The occupied cells and what they hold. -/
abbrev Tape := Std.ExtTreeMap Int Char

namespace Tape

/-- The symbol in a cell. -/
def read (t : Tape) (i : Int) : Char :=
  t[i]?.getD blank

/-- Writes the characters of a text to consecutive cells from `i` on. A blank and a `_` leave
their cell as it is. -/
def layOut (t : Tape) (i : Int) : List Char → Tape
  | [] => t
  | c :: rest =>
    layOut (if c = blank ∨ c = blankMark then t else t.insert i c) (i + 1) rest

/-- A text on a fresh tape, its first character in cell `start`. -/
def ofString (text : String) (start : Int) : Tape :=
  layOut ∅ start text.toList

/-- A cell reads as what was written to it last. -/
theorem read_insert (t : Tape) (i j : Int) (c : Char) :
    read (t.insert i c) j = if i = j then c else t.read j := by
  unfold read
  rw [Std.ExtTreeMap.getElem?_insert]
  by_cases h : i = j <;> simp [h]

end Tape

end TapeMachine
