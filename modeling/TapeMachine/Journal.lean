import TapeMachine.Error
import TapeMachine.Transition

/-!
# The journal

Reading a program, building a machine and running it leave a journal of what happened. Every
event has a level of severity; a journal keeps the events that are at least as severe as its
threshold, in the order in which they happened.

Work that leaves a journal and can fail is a `Logged` computation. A failure keeps what the
journal held up to then.
-/

namespace TapeMachine

open Text

/-! ## Levels -/

/-- How severe an event is, most severe first. -/
inductive Level where
  | error
  | warn
  | info
  | debug
  | trace
  deriving DecidableEq, Repr, Inhabited

namespace Level

/-- The place of a level in the order of severity, `0` for the most severe. -/
def rank : Level → Nat
  | error => 0
  | warn => 1
  | info => 2
  | debug => 3
  | trace => 4

/-- The English name of a level, in capitals. -/
def name : Level → String
  | error => "ERROR"
  | warn => "WARN"
  | info => "INFO"
  | debug => "DEBUG"
  | trace => "TRACE"

end Level

/-! ## Events -/

/-- One applied step: its number in the run, what was read and written, where the carriage
moved, and the state and cell it led to. -/
structure StepRecord where
  /-- The number of steps applied, this one included. -/
  number : Nat
  /-- The symbol found under the carriage. -/
  read : Char
  /-- The symbol written in its place. -/
  wrote : Char
  /-- The direction of the move. -/
  moved : Direction
  /-- The state after the step. -/
  state : String
  /-- The cell of the carriage after the step. -/
  carriage : Int64
  deriving DecidableEq

/-- Something worth noting. -/
inductive Event where
  /-- No run that begins in `start` can enter these states. -/
  | statesUnreachable (start : String) (states : List String)
  /-- A machine has been built. -/
  | machineReady (states transitions symbols maxTapeLength maxSteps : Nat)
  /-- A step has been applied. -/
  | stepApplied (record : StepRecord)
  /-- A run has come to the terminal state. -/
  | runHalted (steps : Nat)
  /-- A run was asked to stop. -/
  | runCancelled (steps : Nat)
  /-- The header row of a state table has been found. -/
  | headerFound (line : Nat) (states : List String)
  /-- A field of a state table has been read. -/
  | fieldRead (state : String) (symbol : Char) (transition : Transition)
  /-- A state table has been read to its end. -/
  | programRead (transitions states : Nat)
  /-- A program of a directory could not be loaded. -/
  | programSkipped (path : String) (error : Error)
  /-- The alphabet has been taken from the program. -/
  | alphabetInferred (symbols : String)
  deriving DecidableEq

namespace Event

/-- The severity of an event. -/
def level : Event → Level
  | statesUnreachable .. | programSkipped .. => .warn
  | machineReady .. | runHalted _ | runCancelled _ | headerFound .. | programRead ..
  | alphabetInferred _ => .debug
  | stepApplied _ | fieldRead .. => .trace

/-- The text of an event. -/
def message : Event → String
  | statesUnreachable start states =>
    "States unreachable from " ++ start ++ ": " ++ ", ".intercalate states
  | machineReady states transitions symbols maxTapeLength maxSteps =>
    "Machine ready: " ++ toString states ++ " states, " ++ toString transitions ++
      " transitions, " ++ toString symbols ++ " symbols, max tape length " ++
      toString maxTapeLength ++ ", max steps " ++ toString maxSteps
  | stepApplied r =>
    "step " ++ toString r.number ++ ": read " ++ quotedSymbol r.read ++ ", wrote " ++
      quotedSymbol r.wrote ++ ", moved " ++ r.moved.name ++ ", now " ++ r.state ++ " at " ++
      toString r.carriage.toInt
  | runHalted steps => "Machine halted after " ++ toString steps ++ " steps"
  | runCancelled steps => "Run cancelled after " ++ toString steps ++ " steps"
  | headerFound line states =>
    "State table header at line " ++ toString line ++ ": " ++ quotedList states
  | fieldRead state symbol transition =>
    state ++ " " ++ quotedSymbol symbol ++ " -> " ++ transition.describe
  | programRead transitions states =>
    "Read " ++ toString transitions ++ " transitions for " ++ toString states ++ " states"
  | programSkipped path error => "Skipping " ++ path ++ ": " ++ error.message
  | alphabetInferred symbols => "Inferred alphabet " ++ quoted symbols

end Event

/-! ## Journals -/

/-- The events kept so far, oldest first, and the least severe level that is kept. -/
structure Journal where
  /-- The least severe level kept. -/
  threshold : Level
  /-- The events kept, oldest first. -/
  events : Array Event := #[]
  deriving Inhabited

namespace Journal

/-- Adds an event, if the journal keeps its level. -/
def record (j : Journal) (e : Event) : Journal :=
  if e.level.rank ≤ j.threshold.rank then { j with events := j.events.push e } else j

/-- Adds events in order. -/
def recordAll (j : Journal) (es : List Event) : Journal :=
  es.foldl record j

@[simp] theorem recordAll_nil (j : Journal) : j.recordAll [] = j :=
  rfl

@[simp] theorem recordAll_cons (j : Journal) (e : Event) (es : List Event) :
    j.recordAll (e :: es) = (j.record e).recordAll es :=
  rfl

theorem recordAll_append (j : Journal) (es fs : List Event) :
    j.recordAll (es ++ fs) = (j.recordAll es).recordAll fs :=
  List.foldl_append

@[simp] theorem threshold_record (j : Journal) (e : Event) :
    (j.record e).threshold = j.threshold := by
  unfold record
  split <;> rfl

/-- A journal gains exactly the events whose level it keeps. -/
theorem events_recordAll (j : Journal) (es : List Event) :
    (j.recordAll es).events.toList =
      j.events.toList ++ es.filter fun e => e.level.rank ≤ j.threshold.rank := by
  induction es generalizing j with
  | nil => simp
  | cons e es ih =>
    rw [recordAll_cons, ih, threshold_record]
    by_cases h : e.level.rank ≤ j.threshold.rank <;> simp [record, h]

end Journal

/-- Work that leaves a journal and can fail. -/
abbrev Logged := ExceptT Error (StateM Journal)

/-- Puts events into the journal. -/
def note (es : List Event) : Logged Unit :=
  modify fun j => j.recordAll es

end TapeMachine
