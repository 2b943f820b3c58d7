import TapeMachine.Error
import TapeMachine.Program.Basic

/-!
# Validity of a program

A machine can use a program only if every transition writes a symbol of the alphabet and enters
the terminal state or a state of the program. `Program.violation?` finds the first entry, in the
order of the program, that breaks this rule, and names how.
-/

namespace TapeMachine

/-- How an entry breaks the rule, if it does. A foreign symbol is reported before an unknown
state. -/
def Entry.violation? (e : Entry) (alphabet : Alphabet) (terminal : String)
    (known : String → Bool) : Option Error :=
  if e.transition.write ∉ alphabet then
    some (.unexpectedSymbol e.state e.transition.write .written)
  else if e.transition.next = terminal ∨ known e.transition.next then
    none
  else
    some (.stateNotFound e.transition.next e.state e.symbol)

/-- The first breach of the rule in the order of the program, if there is one. -/
def Program.violation? (p : Program) (alphabet : Alphabet) (terminal : String) : Option Error :=
  p.entries.findSome? fun e => e.violation? alphabet terminal p.containsState

/-- An entry keeps the rule if it writes a symbol of the alphabet and enters the terminal state
or a known state. -/
theorem Entry.violation?_eq_none_iff {e : Entry} {alphabet : Alphabet} {terminal : String}
    {known : String → Bool} :
    e.violation? alphabet terminal known = none ↔
      e.transition.write ∈ alphabet ∧
        (e.transition.next = terminal ∨ known e.transition.next = true) := by
  unfold violation?
  by_cases hw : e.transition.write ∈ alphabet
  · by_cases hn : e.transition.next = terminal ∨ known e.transition.next = true <;>
      simp [hw, hn]
  · simp [hw]

/-- A program keeps the rule if all its entries do. -/
theorem Program.violation?_eq_none_iff {p : Program} {alphabet : Alphabet} {terminal : String} :
    p.violation? alphabet terminal = none ↔
      ∀ e ∈ p.entries, e.transition.write ∈ alphabet ∧
        (e.transition.next = terminal ∨ p.containsState e.transition.next = true) := by
  simp only [violation?, List.findSome?_eq_none_iff, Entry.violation?_eq_none_iff]

end TapeMachine
