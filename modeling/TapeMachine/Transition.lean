import TapeMachine.Direction
import TapeMachine.Text.Quoted

/-!
# Transitions

What a machine does in one step: it writes a symbol, moves the carriage and enters a state.
-/

namespace TapeMachine

/-- The action bound to a state and a symbol. -/
structure Transition where
  /-- The state the machine enters. -/
  next : String
  /-- The symbol written to the cell under the carriage. -/
  write : Char
  /-- Where the carriage moves after writing. -/
  direction : Direction
  deriving DecidableEq, Inhabited

/-- A transition spelled out field by field, for messages. -/
def Transition.describe (t : Transition) : String :=
  "Transition \x7b next_state: " ++ Text.quoted t.next ++ ", write: " ++
    Text.quotedSymbol t.write ++ ", direction: " ++ t.direction.name ++ " \x7d"

end TapeMachine
