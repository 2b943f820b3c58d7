import TapeMachine.Journal
import TapeMachine.Program.Basic
import TapeMachine.Table.Delivery
import TapeMachine.Table.Field
import TapeMachine.Text.DecimalDigit

/-!
# Reading state tables

A state table is a text of lines of tab-separated fields:

* free lines, up to the header;
* the header: the first line in which a field after the first names a state, that is, holds a
  `Q` followed by a decimal digit. All its fields after the first are state names;
* rows. The first character of a row's first field is a symbol, and the field in column `k`
  after it is the transition for the `k`-th state of the header and that symbol. Empty fields
  are passed over, and so are rows whose first field is empty.

`Table.findings` lists everything a list of deliveries holds, good and bad, in reading order.
`Table.outcome` is the program, or the first error among the findings.
-/

namespace TapeMachine.Table

/-! ## Lines -/

/-- The fields of a line. -/
def fields (line : String) : List (List Char) :=
  line.toList.splitOn '\t'

/-- The characters hold a `Q` followed by a decimal digit. -/
def namesState : List Char → Bool
  | [] => false
  | [_] => false
  | c :: d :: rest => (c == statePrefix && Text.isDecimalDigit d) || namesState (d :: rest)

/-- A field after the first names a state. -/
def isHeader (line : String) : Bool :=
  (fields line).tail.any namesState

/-- The state names of a header: all fields after the first. -/
def headerStates (line : String) : List String :=
  (fields line).tail.map String.ofList

/-! ## Findings -/

/-- Something found in a state table. -/
inductive Finding where
  /-- The header, with its line number and state names. -/
  | header (line : Nat) (states : List String)
  /-- A field that holds a transition. -/
  | cell (entry : Entry)
  deriving DecidableEq

/-- The fields of row number `line` that are not empty, read as transitions for the states of
the header. A field in a column without a state is an error. -/
def rowFindings (states : List String) (line : Nat) (row : String) :
    List (Except Error Finding) :=
  match fields row with
  | (symbol :: _) :: columns =>
    (columns.zipIdx.filter fun (field, _) => field ≠ []).map fun (field, i) =>
      match states[i]? with
      | none => .error (.columnOutOfRange line (i + 1))
      | some state =>
        (Transition.ofField (String.ofList field)).map fun t => .cell ⟨state, symbol, t⟩
  | _ => []

/-- What a delivery after the header holds. -/
def deliveryFindings (states : List String) (line : Nat) :
    Delivery → List (Except Error Finding)
  | .ok row => rowFindings states line row
  | .error e => [.error e]

/-- The delivery is a line before the header. -/
def isFreeLine : Delivery → Bool
  | .ok line => !isHeader line
  | .error _ => false

/-- Everything a list of deliveries holds, in reading order. Lines are numbered from 1. -/
def findings (deliveries : List Delivery) : List (Except Error Finding) :=
  match (deliveries.zipIdx 1).dropWhile fun (d, _) => isFreeLine d with
  | [] => []
  | (.error e, _) :: _ => [.error e]
  | (.ok header, n) :: rows =>
    .ok (.header n (headerStates header)) ::
      rows.flatMap fun (d, line) => deliveryFindings (headerStates header) line d

/-! ## The outcome -/

/-- The first error among the findings. -/
def failure? (found : List (Except Error Finding)) : Option Error :=
  found.findSome? fun
    | .error e => some e
    | .ok _ => none

/-- The entries among the findings, in reading order. -/
def cells (found : List (Except Error Finding)) : List Entry :=
  found.filterMap fun
    | .ok (.cell e) => some e
    | _ => none

/-- The program of the findings, if they hold no error and at least one cell. -/
def outcome (found : List (Except Error Finding)) : Except Error Program :=
  match failure? found with
  | some e => .error e
  | none =>
    if (cells found).isEmpty then .error .noTransitions else .ok (.ofEntries (cells found))

/-- The program that a text holds. -/
def parse (text : String) : Except Error Program :=
  outcome (findings (Delivery.ofText text))

/-! ## Reading with a journal -/

/-- The event of a finding. -/
def Finding.event : Finding → Event
  | header line states => .headerFound line states
  | cell e => .fieldRead e.state e.symbol e.transition

/-- The findings before the first error. -/
def sound (found : List (Except Error Finding)) : List Finding :=
  (found.takeWhile Except.isOk).filterMap Except.toOption

/-- Reads a list of deliveries. The journal gets every finding before the first error, and a
summary at the end. -/
def read (deliveries : List Delivery) : Logged Program := do
  let found := findings deliveries
  note ((sound found).map Finding.event)
  let p ← outcome found
  note [.programRead p.transitionCount p.stateCount]
  return p

end TapeMachine.Table
