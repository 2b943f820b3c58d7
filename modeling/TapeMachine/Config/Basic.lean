/-!
# Configurations

What a machine needs to know besides its program: the symbols of its tape, the states it begins
and ends in, and how much tape and how many steps a run may use.
-/

namespace TapeMachine

/-- The setting of a machine. -/
structure Config where
  /-- The symbols of the tape. The blank need not be among them: it is always added. -/
  alphabet : String := ""
  /-- The state a run begins in. -/
  startState : String := "Q1"
  /-- The state that ends a run. -/
  terminalState : String := "Q0"
  /-- A run fails once this many cells are occupied. -/
  maxTapeLength : UInt64 := 10000
  /-- A run fails once it has taken this many steps; `0` sets no limit. -/
  maxSteps : UInt64 := 0
  deriving DecidableEq, Inhabited

namespace Config

/-- The same configuration with other start and terminal states. -/
def withStates (c : Config) (startState terminalState : String) : Config :=
  { c with startState, terminalState }

/-- The same configuration with other limits. -/
def withLimits (c : Config) (maxTapeLength maxSteps : UInt64) : Config :=
  { c with maxTapeLength, maxSteps }

end Config

end TapeMachine
