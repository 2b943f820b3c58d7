import TapeMachine.Tape.Basic

/-!
# Showing a tape

`Tape.render` shows the stretch of a tape from its first occupied cell to its last. The cells
between that are not occupied are shown as blanks, but a stretch of more than sixteen of them is
shown as a single ellipsis.
-/

namespace TapeMachine.Tape

/-- The longest stretch of unoccupied cells that is spelled out. -/
def longestGap : Nat := 16

/-- What stands for a longer stretch. -/
def gapMark : Char := '…'

/-- How `n` unoccupied cells in a row are shown. -/
def gap (n : Nat) : List Char :=
  if longestGap < n then [gapMark] else List.replicate n blank

/-- The cell `cell` after the occupied cell `i`, with the unoccupied cells between them. -/
def afterCell (i : Int) (cell : Int × Char) : List Char :=
  gap (cell.1 - i - 1).toNat ++ [cell.2]

/-- Occupied cells in ascending order, with what lies between them. -/
def renderCells : List (Int × Char) → List Char
  | [] => []
  | first :: rest =>
    first.2 :: ((first :: rest).zip rest).flatMap fun (before, cell) => afterCell before.1 cell

/-- A tape as a text, from its first occupied cell to its last. -/
def render (t : Tape) : String :=
  String.ofList (renderCells t.toList)

end TapeMachine.Tape
