/-!
# Directions of the carriage

The carriage stands on one cell of the tape and moves by at most one cell a step. Cells are
numbered by signed 64-bit integers; a move past either end of that range is not made (`move?`).
-/

namespace TapeMachine

/-- Where the carriage goes after writing. -/
inductive Direction where
  /-- One cell to the left. -/
  | left
  /-- One cell to the right. -/
  | right
  /-- Nowhere: the carriage keeps its cell. -/
  | stay
  deriving DecidableEq, Repr, Inhabited

namespace Direction

/-- The change of the carriage's cell. -/
def offset : Direction → Int
  | left => -1
  | right => 1
  | stay => 0

/-- The direction of a given change of cell. -/
def ofOffset? (d : Int) : Option Direction :=
  if d = -1 then some left
  else if d = 1 then some right
  else if d = 0 then some stay
  else none

/-- The mark of a direction in a field of a state table. -/
def separator : Direction → Char
  | left => '<'
  | right => '>'
  | stay => '.'

/-- The direction that a mark stands for. -/
def ofSeparator? (c : Char) : Option Direction :=
  if c = '<' then some left
  else if c = '>' then some right
  else if c = '.' then some stay
  else none

/-- The English name of a direction, capitalised. -/
def name : Direction → String
  | left => "Left"
  | right => "Right"
  | stay => "Stay"

/-- The direction of a given name. -/
def ofName? (s : String) : Option Direction :=
  [left, right, stay].find? fun d => d.name = s

/-- The cell the carriage comes to from `c`, if it is a cell at all. -/
def move? (d : Direction) (c : Int64) : Option Int64 :=
  if Int64.minValue.toInt ≤ c.toInt + d.offset ∧ c.toInt + d.offset ≤ Int64.maxValue.toInt then
    some (Int64.ofInt (c.toInt + d.offset))
  else
    none

@[simp] theorem ofSeparator?_separator (d : Direction) : ofSeparator? d.separator = some d := by
  cases d <;> rfl

@[simp] theorem ofOffset?_offset (d : Direction) : ofOffset? d.offset = some d := by
  cases d <;> rfl

/-- Different directions have different marks. -/
theorem separator_injective {d e : Direction} (h : d.separator = e.separator) : d = e := by
  simpa using congrArg ofSeparator? h

/-- A move that is made adds the offset, without wrapping. -/
theorem move?_eq_some_iff {d : Direction} {c c' : Int64} :
    d.move? c = some c' ↔ c'.toInt = c.toInt + d.offset := by
  unfold move?
  constructor
  · intro h
    split at h
    next range =>
      cases h
      rw [Int64.toInt_minValue, Int64.toInt_maxValue] at range
      exact Int64.toInt_ofInt_of_le range.1 (Int.lt_of_le_sub_one range.2)
    next => cases h
  · intro h
    have lower := c'.minValue_le_toInt
    have upper := c'.toInt_le
    rw [h] at lower upper
    rw [if_pos ⟨lower, upper⟩, ← h, Int64.ofInt_toInt]

/-- A move is refused exactly when it would leave the range of cells. -/
theorem move?_eq_none_iff {d : Direction} {c : Int64} :
    d.move? c = none ↔ c.toInt + d.offset < Int64.minValue.toInt ∨
      Int64.maxValue.toInt < c.toInt + d.offset := by
  rw [move?, ite_eq_right_iff]
  simp only [reduceCtorEq, imp_false]
  omega

end Direction

end TapeMachine
