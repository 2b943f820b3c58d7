import Std.Data.ExtTreeMap
import TapeMachine.Symbol
import TapeMachine.Transition

/-!
# Programs

A program is a table: for every state a row, and in the row a transition for some of the
symbols. States and symbols are kept in ascending order of code points, and a pair has at most
one transition, so two programs with the same rows are equal. A row may be empty; its state
counts as a state of the program all the same.
-/

namespace TapeMachine

/-- The transitions of one state by symbol. -/
abbrev Row := Std.ExtTreeMap Char Transition

/-- A table of transitions by state and symbol. -/
structure Program where
  /-- The rows by state. -/
  rows : Std.ExtTreeMap String Row
  deriving DecidableEq

/-- One place of a program that holds a transition. -/
structure Entry where
  /-- The state of the row. -/
  state : String
  /-- The symbol read. -/
  symbol : Char
  /-- What is done. -/
  transition : Transition
  deriving DecidableEq

namespace Program

/-! ## Building -/

/-- The program without a row. -/
def empty : Program :=
  ⟨∅⟩

instance : Inhabited Program :=
  ⟨empty⟩

/-- Binds a transition to a state and a symbol, in place of the one bound before, if any. -/
def insert (p : Program) (state : String) (symbol : Char) (t : Transition) : Program :=
  ⟨p.rows.alter state fun row => some ((row.getD ∅).insert symbol t)⟩

/-- Binds the transition of an entry. -/
def add (p : Program) (e : Entry) : Program :=
  p.insert e.state e.symbol e.transition

/-- The program of a list of entries; of two entries in one place the later counts. -/
def ofEntries (es : List Entry) : Program :=
  es.foldl add empty

/-! ## Looking up -/

/-- The transition for a state and a symbol. -/
def get? (p : Program) (state : String) (symbol : Char) : Option Transition :=
  p.rows[state]?.bind fun row => row[symbol]?

/-- The row of a state. -/
def row? (p : Program) (state : String) : Option Row :=
  p.rows[state]?

/-- The program has a row for the state. -/
def containsState (p : Program) (state : String) : Bool :=
  p.rows.contains state

/-- Binds a transition and gives the one it replaces, if any. -/
def exchange (p : Program) (state : String) (symbol : Char) (t : Transition) :
    Option Transition × Program :=
  (p.get? state symbol, p.insert state symbol t)

/-! ## Listing -/

/-- The states that have a row, ascending. -/
def states (p : Program) : List String :=
  p.rows.keys

/-- The entries, ascending by state and then by symbol. -/
def entries (p : Program) : List Entry :=
  p.rows.toList.flatMap fun (state, row) =>
    row.toList.map fun (symbol, t) => ⟨state, symbol, t⟩

/-- The symbols read or written, without the blank. -/
def symbols (p : Program) : Alphabet :=
  (Std.ExtTreeSet.ofList (p.entries.flatMap fun e => [e.symbol, e.transition.write])).erase blank

/-- The number of rows. -/
def stateCount (p : Program) : Nat :=
  p.rows.size

/-- The number of transitions. -/
def transitionCount (p : Program) : Nat :=
  (p.rows.values.map Std.ExtTreeMap.size).foldr (· + ·) 0

/-- The program has no row. -/
def isEmpty (p : Program) : Bool :=
  p.rows.isEmpty

/-! ## Lookups after building -/

/-- Nothing is bound in the empty program. -/
@[simp] theorem get?_empty (state : String) (symbol : Char) : empty.get? state symbol = none := by
  simp [get?, empty]

/-- A place holds what was bound to it last; every other place is as before. -/
theorem get?_insert (p : Program) (s s' : String) (x x' : Char) (t : Transition) :
    (p.insert s x t).get? s' x' = if s = s' ∧ x = x' then some t else p.get? s' x' := by
  unfold get? insert
  rw [Std.ExtTreeMap.getElem?_alter]
  by_cases hs : s = s'
  · subst hs
    cases h : p.rows[s]? <;> simp [Std.ExtTreeMap.getElem?_insert]
  · simp [hs]

/-- Binding in a row leaves every row where it was, and adds the row if it was missing. -/
theorem containsState_insert (p : Program) (s s' : String) (x : Char) (t : Transition) :
    (p.insert s x t).containsState s' = (decide (s = s') || p.containsState s') := by
  unfold containsState insert
  rw [Std.ExtTreeMap.contains_alter]
  by_cases hs : s = s' <;> simp [hs]

end Program

end TapeMachine
