import TapeMachine.Json.Reader
import TapeMachine.Json.Writer
import TapeMachine.Program.Basic

/-!
# Programs as JSON

A program is written as an object that gives every state its row; a row is an object that gives
every symbol its transition; a transition is an object with its three parts.

When a program is read, a state given twice keeps its later row and a symbol given twice in one
row its later transition. A transition may be an array of its three parts in order; in an object
unknown members are passed over, every part must be given, and none twice. A direction is its
name, or an object with the name as its only key and null as its value.
-/

namespace TapeMachine

/-! ## Directions -/

namespace Direction

/-- A direction as a JSON value. -/
def toJson (d : Direction) : Json :=
  .text d.name

/-- The direction that a JSON value gives. -/
def ofJson? : Json → Option Direction
  | .string (some name) => ofName? (String.ofList name)
  | .object [(some name, .null)] => ofName? (String.ofList name)
  | _ => none

end Direction

/-- The symbol that a string of one character gives. -/
def Json.symbol? : Json → Option Char
  | .string (some [c]) => some c
  | _ => none

/-! ## Transitions -/

namespace Transition

/-- The key of the state that a transition enters. -/
def nextKey : String := "next_state"

/-- The key of the symbol that a transition writes. -/
def writeKey : String := "write"

/-- The key of the direction of a transition. -/
def directionKey : String := "direction"

/-- A transition as a JSON value. -/
def toJson (t : Transition) : Json :=
  .record [(nextKey, .text t.next), (writeKey, .string (some [t.write])),
    (directionKey, t.direction.toJson)]

/-- The only value of a key among members; `none` if the key is missing or repeated. -/
def only? (members : List (Option (List Char) × Json)) (key : String) : Option Json :=
  match members.filter fun m => m.1 = some key.toList with
  | [(_, value)] => some value
  | _ => none

/-- A transition from its three parts. -/
def ofParts? (next write direction : Json) : Option Transition := do
  return ⟨← next.text?, ← write.symbol?, ← Direction.ofJson? direction⟩

/-- The transition that a JSON value gives. -/
def ofJson? : Json → Option Transition
  | .object members => do
    if members.any fun m => m.1.isNone then none
    else
      ofParts? (← only? members nextKey) (← only? members writeKey)
        (← only? members directionKey)
  | .array [next, write, direction] => ofParts? next write direction
  | _ => none

end Transition

/-! ## Rows and programs -/

namespace Row

/-- A row as a JSON value, its symbols ascending. -/
def toJson (row : Row) : Json :=
  .object (row.toList.map fun (symbol, t) => (some [symbol], t.toJson))

/-- Adds the transitions of an object's members to a row. -/
def addMembers? (row : Row) : List (Option (List Char) × Json) → Option Row
  | [] => some row
  | (some [symbol], value) :: rest =>
    match Transition.ofJson? value with
    | some t => addMembers? (row.insert symbol t) rest
    | none => none
  | _ :: _ => none

/-- The row that a JSON value gives. -/
def ofJson? : Json → Option Row
  | .object members => addMembers? ∅ members
  | _ => none

end Row

namespace Program

/-- A program as a JSON value, its states ascending. -/
def toJson (p : Program) : Json :=
  .object (p.rows.toList.map fun (state, row) => (some state.toList, Row.toJson row))

/-- Adds the rows of an object's members to a program. -/
def addMembers? (p : Program) : List (Option (List Char) × Json) → Option Program
  | [] => some p
  | (some state, value) :: rest =>
    match Row.ofJson? value with
    | some row => addMembers? ⟨p.rows.insert (String.ofList state) row⟩ rest
    | none => none
  | (none, _) :: _ => none

/-- The program that a JSON value gives. -/
def ofJson? : Json → Option Program
  | .object members => addMembers? empty members
  | _ => none

/-- A program as a JSON text. -/
def json (p : Program) : String :=
  p.toJson.render

/-- The program that a JSON text gives. -/
def parseJson? (text : String) : Option Program :=
  (Json.parse? text).bind ofJson?

end Program

end TapeMachine
