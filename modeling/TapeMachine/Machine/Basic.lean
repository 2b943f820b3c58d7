import TapeMachine.Config.Basic
import TapeMachine.Journal
import TapeMachine.Program.Reachability
import TapeMachine.Program.Validity

/-!
# Machines

A machine is a program together with the alphabet, the two states and the limits it runs under.
Only sound machines exist: `Machine.flaw?` looks for something that would make a machine
unusable, and a machine carries the proof that there is nothing (`Machine.flawless`).

`Machine.build` makes a machine of a configuration and a program, or names the first flaw.
-/

namespace TapeMachine

/-- The first thing that makes a machine unusable: an empty name of a state, no room on the
tape, or an entry that breaks the rule of its program. -/
def Machine.flaw? (alphabet : Alphabet) (startState terminalState : String) (program : Program)
    (maxTapeLength : UInt64) : Option Error :=
  if startState = "" then some .startStateEmpty
  else if terminalState = "" then some .terminalStateEmpty
  else if maxTapeLength = 0 then some (.invalidMaxTapeLength 0)
  else program.violation? alphabet terminalState

/-- A program with all that is needed to run it. A machine does not change; any number of runs
can use it. -/
structure Machine where
  /-- The symbols of the tape. -/
  alphabet : Alphabet
  /-- The state a run begins in. -/
  startState : String
  /-- The state that ends a run. -/
  terminalState : String
  /-- The table of transitions. -/
  program : Program
  /-- A run fails once this many cells are occupied. -/
  maxTapeLength : UInt64
  /-- A run fails once it has taken this many steps; `0` sets no limit. -/
  maxSteps : UInt64
  /-- The blank is a symbol of the tape. -/
  blank_mem : blank ∈ alphabet
  /-- Nothing makes the machine unusable. -/
  flawless : Machine.flaw? alphabet startState terminalState program maxTapeLength = none

namespace Machine

/-- The machine of a configuration and a program, or its first flaw. The blank joins the
symbols of the configuration. -/
def ofConfig (c : Config) (p : Program) : Except Error Machine :=
  match h : flaw? (.ofString c.alphabet) c.startState c.terminalState p c.maxTapeLength with
  | some e => .error e
  | none =>
    .ok {
      alphabet := .ofString c.alphabet
      startState := c.startState
      terminalState := c.terminalState
      program := p
      maxTapeLength := c.maxTapeLength
      maxSteps := c.maxSteps
      blank_mem := Alphabet.mem_ofString.2 (.inl rfl)
      flawless := h }

/-- What is noted of a new machine: a warning if some states cannot be reached, then its
measures. -/
def notices (m : Machine) : List Event :=
  let unreachable := m.program.unreachable m.startState m.terminalState
  (if unreachable = [] then [] else [.statesUnreachable m.startState unreachable]) ++
    [.machineReady m.program.stateCount m.program.transitionCount m.alphabet.size
      m.maxTapeLength.toNat m.maxSteps.toNat]

/-- Makes a machine and notes it in the journal. -/
def build (c : Config) (p : Program) : Logged Machine := do
  let m ← ofConfig c p
  note m.notices
  return m

/-- What is built of a program that has just been read: the machine, or the first failure. -/
theorem build_result (work : Logged Program) (c : Config) (j : Journal) :
    ((work >>= build c).run j).1 = (work.run j).1.bind (ofConfig c) := by
  have hbuild : ∀ p j, ((build c p).run j).1 = ofConfig c p := fun p j => by
    unfold build
    cases ofConfig c p <;> rfl
  change ((ExceptT.bindCont (build c) (work.run j).1).run (work.run j).2).1 = _
  cases (work.run j).1 with
  | ok p => exact hbuild p _
  | error e => rfl

/-- A machine is without flaw exactly if its states have names, there is room on its tape and
its program keeps to the alphabet and to known states. -/
theorem flaw?_eq_none_iff {alphabet : Alphabet} {startState terminalState : String}
    {program : Program} {maxTapeLength : UInt64} :
    flaw? alphabet startState terminalState program maxTapeLength = none ↔
      startState ≠ "" ∧ terminalState ≠ "" ∧ maxTapeLength ≠ 0 ∧
        ∀ e ∈ program.entries, e.transition.write ∈ alphabet ∧
          (e.transition.next = terminalState ∨
            program.containsState e.transition.next = true) := by
  unfold flaw?
  rw [← Program.violation?_eq_none_iff]
  by_cases hs : startState = "" <;> by_cases ht : terminalState = "" <;>
    by_cases hl : maxTapeLength = 0 <;> simp [hs, ht, hl]

end Machine

end TapeMachine
