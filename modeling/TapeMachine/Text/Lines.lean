/-!
# Lines

A text is cut at every line end. What stands after the last line end is a line only if it is
not empty, and then it is not terminated.

A line is a list over any type, so that a text can be cut as characters and as bytes.
-/

namespace TapeMachine.Text

variable {α : Type} [DecidableEq α]

/-- A line: its characters without the line end, and whether a line end closed it. -/
structure Line (α : Type) where
  /-- The characters before the line end. -/
  body : List α
  /-- A line end follows. -/
  terminated : Bool

/-- Of the stretches between line ends all but the last are closed by one. -/
def linesOfPieces : List (List α) → List (Line α)
  | [] => []
  | [last] => if last = [] then [] else [⟨last, false⟩]
  | piece :: next :: rest => ⟨piece, true⟩ :: linesOfPieces (next :: rest)

/-- The lines of a text whose lines end at `newline`. -/
def lines (newline : α) (s : List α) : List (Line α) :=
  linesOfPieces (s.splitOn newline)

/-- The characters of a line, less one `ret` that stands right before its line end. -/
def Line.content (ret : α) (line : Line α) : List α :=
  if line.terminated && line.body.getLast? = some ret then line.body.dropLast else line.body

@[simp] theorem lines_nil (newline : α) : lines newline [] = [] := by
  simp [lines, linesOfPieces]

/-- The characters up to the first line end are the first line. -/
theorem lines_append_cons {newline : α} {body : List α} (h : newline ∉ body) (rest : List α) :
    lines newline (body ++ newline :: rest) = ⟨body, true⟩ :: lines newline rest := by
  unfold lines
  rw [List.splitOn_append_cons_self_of_not_mem h]
  cases hs : rest.splitOn newline with
  | nil => simp at hs
  | cons piece pieces => rfl

/-- A non-empty text without a line end is one line. -/
theorem lines_of_not_mem {newline : α} {body : List α} (h : newline ∉ body) (ne : body ≠ []) :
    lines newline body = [⟨body, false⟩] := by
  unfold lines
  rw [List.splitOn_eq_singleton h]
  simp [linesOfPieces, ne]

end TapeMachine.Text
