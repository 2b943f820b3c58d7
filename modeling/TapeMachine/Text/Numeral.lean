/-!
# Decimal numerals

A numeral is a run of ASCII digits, leading zeros included, after an optional `+`; for a
signed number a `-` is taken too. It is refused when it holds anything else or names a number
outside the range of the type.
-/

namespace TapeMachine.Text

/-- The number written by a non-empty run of ASCII digits. -/
def digitsValue? (s : List Char) : Option Nat :=
  if s ≠ [] ∧ s.all Char.isDigit then
    some (s.foldl (fun n c => 10 * n + (c.toNat - '0'.toNat)) 0)
  else
    none

/-- The characters after an optional `+`. -/
def dropPlus : List Char → List Char
  | '+' :: s => s
  | s => s

/-- An unsigned number below `2 ^ 64`. -/
def uint64? (s : List Char) : Option UInt64 := do
  let n ← digitsValue? (dropPlus s)
  if h : n < UInt64.size then some (UInt64.ofNatLT n h) else none

/-- A signed number from `-2 ^ 63` to `2 ^ 63 - 1`. -/
def int64? (s : List Char) : Option Int64 := do
  let z ← match s with
    | '-' :: digits => (digitsValue? digits).map fun n => -(n : Int)
    | s => (digitsValue? (dropPlus s)).map fun n => (n : Int)
  if Int64.minValue.toInt ≤ z ∧ z ≤ Int64.maxValue.toInt then some (Int64.ofInt z) else none

end TapeMachine.Text
