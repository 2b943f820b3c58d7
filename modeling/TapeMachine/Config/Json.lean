import TapeMachine.Config.Basic
import TapeMachine.Error
import TapeMachine.Json.Reader
import TapeMachine.Json.Writer
import TapeMachine.Text.Numeral

/-!
# Configurations as JSON

A configuration is written as an object with its five settings. It is read from an object, where
missing settings keep their defaults and unknown members are passed over, or from an array that
gives the settings in order and may end early. A setting given twice is an error, and so is a
value of the wrong kind: names are strings, limits are whole numbers below `2 ^ 64` spelled with
digits alone.
-/

namespace TapeMachine

/-- The limit that a JSON value gives. -/
def Json.uint64? : Json → Option UInt64
  | .number (d :: ds) => if d.isDigit then Text.uint64? (d :: ds) else none
  | _ => none

namespace Config

/-- The settings of a configuration. -/
inductive Setting where
  | alphabet
  | startState
  | terminalState
  | maxTapeLength
  | maxSteps
  deriving DecidableEq

namespace Setting

/-- The key of a setting. -/
def key : Setting → String
  | alphabet => "alphabet"
  | startState => "start_state"
  | terminalState => "terminal_state"
  | maxTapeLength => "max_tape_length"
  | maxSteps => "max_steps"

/-- The settings in the order in which they are written. -/
def all : List Setting :=
  [alphabet, startState, terminalState, maxTapeLength, maxSteps]

/-- The setting of a key. -/
def ofKey? (key : String) : Option Setting :=
  all.find? fun s => s.key = key

/-- The value of a setting in a configuration. -/
def value (c : Config) : Setting → Json
  | alphabet => .text c.alphabet
  | startState => .text c.startState
  | terminalState => .text c.terminalState
  | maxTapeLength => .nat c.maxTapeLength.toNat
  | maxSteps => .nat c.maxSteps.toNat

/-- The configuration with a setting taken from a JSON value of its kind. -/
def update? (c : Config) (j : Json) : Setting → Option Config
  | alphabet => j.text?.map fun s => { c with alphabet := s }
  | startState => j.text?.map fun s => { c with startState := s }
  | terminalState => j.text?.map fun s => { c with terminalState := s }
  | maxTapeLength => j.uint64?.map fun n => { c with maxTapeLength := n }
  | maxSteps => j.uint64?.map fun n => { c with maxSteps := n }

end Setting

/-! ## Writing -/

/-- The members of an object that gives some settings of a configuration, in order. -/
def members (c : Config) (settings : List Setting) : Json :=
  .record (settings.map fun s => (s.key, s.value c))

/-- A configuration as a JSON value. -/
def toJson (c : Config) : Json :=
  c.members Setting.all

/-- A configuration as a JSON text. -/
def json (c : Config) : String :=
  c.toJson.render

/-! ## Reading -/

/-- Takes settings from the members of an object. Those in `given` have been given before. -/
def ofMembers? (c : Config) (given : List Setting) :
    List (Option (List Char) × Json) → Option Config
  | [] => some c
  | (none, _) :: _ => none
  | (some key, value) :: rest =>
    match Setting.ofKey? (String.ofList key) with
    | none => c.ofMembers? given rest
    | some s =>
      if s ∈ given then none
      else
        match s.update? c value with
        | some c => c.ofMembers? (s :: given) rest
        | none => none

/-- Takes settings from the items of an array, in the order `settings`. -/
def ofItems? (c : Config) : List Setting → List Json → Option Config
  | _, [] => some c
  | [], _ :: _ => none
  | s :: settings, item :: items =>
    match s.update? c item with
    | some c => c.ofItems? settings items
    | none => none

/-- The configuration that a JSON value gives. -/
def ofJson? : Json → Option Config
  | .object members => ofMembers? {} [] members
  | .array items => ofItems? {} Setting.all items
  | _ => none

/-- Why a configuration text is refused. -/
def notAConfig : String := "not a machine configuration"

/-- The configuration that a JSON text gives. -/
def parse (text : String) : Except Error Config :=
  match (Json.parse? text).bind ofJson? with
  | some c => .ok c
  | none => .error (.configError notAConfig)

end Config

end TapeMachine
