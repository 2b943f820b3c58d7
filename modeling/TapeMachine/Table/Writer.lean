import TapeMachine.Program.Basic
import TapeMachine.Table.Field
import TapeMachine.Text.Numeral

/-!
# Writing state tables

`Program.table` writes a program as a state table: a header with the states in the order of
their numbers, then a row for every symbol that is read, in ascending order. A symbol stands for
itself at the head of its row, and a pair without a transition leaves its field empty.
-/

namespace TapeMachine

namespace Table

/-- The number of a state: the numeral after its `Q`. A state named otherwise comes after all
that have a smaller number. -/
def stateNumber (state : String) : UInt64 :=
  match state.toList with
  | [] => lastNumber
  | c :: digits => if c = statePrefix then (Text.uint64? digits).getD lastNumber else lastNumber
where
  /-- The greatest number a state can have. -/
  lastNumber : UInt64 := 0xffffffffffffffff

/-- States in the order of their columns: by number, and by name where the numbers agree. -/
def columnOrder (s s' : String) : Ordering :=
  (compare (stateNumber s) (stateNumber s')).then (compare s s')

/-- The states of a program in the order of their columns. -/
def columns (p : Program) : List String :=
  p.states.mergeSort fun s s' => (columnOrder s s').isLE

/-- The symbols of the rows, ascending: those that some state reads. -/
def rowSymbols (p : Program) : List Char :=
  (Std.ExtTreeSet.ofList (p.entries.map Entry.symbol)).toList

/-- The field for a state and a symbol, empty if there is no transition. -/
def fieldFor (p : Program) (symbol : Char) (state : String) : List Char :=
  match p.get? state symbol with
  | some t => t.field.toList
  | none => []

/-- The header row, without its line end. -/
def headerRow (p : Program) : List Char :=
  '\t' :: List.intercalate ['\t'] ((columns p).map String.toList)

/-- The row of a symbol, without its line end. -/
def symbolRow (p : Program) (symbol : Char) : List Char :=
  symbol :: '\t' :: List.intercalate ['\t'] ((columns p).map (fieldFor p symbol))

end Table

/-- A program as a state table. -/
def Program.table (p : Program) : String :=
  String.ofList <|
    (Table.headerRow p :: (Table.rowSymbols p).map (Table.symbolRow p)).flatMap (· ++ ['\n'])

end TapeMachine
