import TapeMachine.Error
import TapeMachine.Symbol
import TapeMachine.Transition

/-!
# Fields of a state table

A field holds one transition: the symbol to write, the mark of a direction, and the name of the
next state without the `Q` that all state names begin with. `1>2` writes `1`, moves right and
enters `Q2`; `_` writes a blank.

`Transition.ofField` reads a field and `Transition.field` writes one. A field may hold several
direction marks. The first of `>`, `<`, `.` that occurs in it divides it, and it must divide it
into exactly two parts, neither of them empty.
-/

namespace TapeMachine

/-- What every state name of a state table begins with. -/
def statePrefix : Char := 'Q'

namespace Direction

/-- The directions in the order in which their marks are looked for. -/
def priority : List Direction := [right, left, stay]

/-- The direction whose mark divides a field. -/
def ofField? (field : List Char) : Option Direction :=
  priority.find? fun d => field.contains d.separator

end Direction

namespace Transition

/-- Why a field without a direction mark is refused. -/
def noDirection : String := "no direction found"

/-- Why a field is refused that its mark does not divide into two parts. -/
def notTwoParts : String := "expected <symbol><direction><state>"

/-- Reads a field. Of the part before the mark only the first character counts. -/
def ofField (field : String) : Except Error Transition :=
  match Direction.ofField? field.toList with
  | none => .error (.parseTransition field noDirection)
  | some d =>
    match field.toList.splitOn d.separator with
    | [symbol :: _, digit :: digits] =>
      .ok ⟨String.ofList (statePrefix :: digit :: digits), symbolOfMark symbol, d⟩
    | _ => .error (.parseTransition field notTwoParts)

/-- A state name less the first `Q`, if it begins with one. -/
def stateDigits (state : String) : List Char :=
  match state.toList with
  | [] => []
  | c :: rest => if c = statePrefix then rest else c :: rest

/-- Writes a field. -/
def field (t : Transition) : String :=
  String.ofList (markOfSymbol t.write :: t.direction.separator :: stateDigits t.next)

end Transition

end TapeMachine
