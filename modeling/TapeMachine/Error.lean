import TapeMachine.Text.Quoted

/-!
# Errors

Everything that can go wrong, by cause. Each error has a fixed code for scripts, a category
that says in which phase it arises, and a message for people.
-/

namespace TapeMachine

/-- Where a symbol outside the alphabet was found. -/
inductive SymbolOrigin where
  /-- In a transition of the program. -/
  | written
  /-- Under the carriage. -/
  | read
  deriving DecidableEq, Repr

/-- The word for an origin in messages. -/
def SymbolOrigin.word : SymbolOrigin → String
  | written => "written"
  | read => "read"

/-- The phase in which an error arises. -/
inductive ErrorCategory where
  /-- Setting up a machine: its configuration or its program cannot be used. -/
  | configuration
  /-- Running a machine: that run is over. -/
  | execution
  /-- Reading the text of a program, or getting at it. -/
  | parse
  deriving DecidableEq, Repr

/-- The English name of a category, capitalised. -/
def ErrorCategory.name : ErrorCategory → String
  | configuration => "Configuration"
  | execution => "Execution"
  | parse => "Parse"

/-- What went wrong. -/
inductive Error where
  /-- The name of the start state is empty. -/
  | startStateEmpty
  /-- The name of the terminal state is empty. -/
  | terminalStateEmpty
  /-- No tape can have at most this many occupied cells. -/
  | invalidMaxTapeLength (cells : Nat)
  /-- No direction changes the cell by this much. -/
  | invalidMoveDirection (offset : String)
  /-- A symbol outside the alphabet. -/
  | unexpectedSymbol (state : String) (symbol : Char) (origin : SymbolOrigin)
  /-- A transition of `source` on `symbol` enters a state that has no row. -/
  | stateNotFound (state source : String) (symbol : Char)
  /-- The program has no transition for the state and the symbol read. -/
  | transitionNotFound (state : String) (symbol : Char)
  /-- The transition repeats itself: it changes neither cell, carriage nor state. -/
  | infiniteLoop (state : String) (symbol : Char)
  /-- The tape has as many occupied cells as it may have, or more. -/
  | tapeOver (cells : Nat) (carriage : Int64)
  /-- The carriage would leave the range of cells. -/
  | carriageOverflow (state : String) (carriage : Int64)
  /-- The run has taken as many steps as it may take. -/
  | stepsExceeded (steps : Nat)
  /-- Somebody asked for the work to stop. -/
  | cancelled
  /-- A field of a state table is not a transition. -/
  | parseTransition (field reason : String)
  /-- A row of a state table has a field in a column without a state. -/
  | columnOutOfRange (line column : Nat)
  /-- A state table holds no transition. -/
  | noTransitions
  /-- There is nothing at this path. -/
  | fileNotFound (path : String)
  /-- A file could not be opened or read. -/
  | fileError (reason : String)
  /-- A configuration text could not be understood. -/
  | configError (reason : String)
  /-- No program of the catalogue has this name. -/
  | programNotFound (name : String)
  deriving DecidableEq, Inhabited

namespace Error

open Text

/-- The fixed code of an error. -/
def code : Error → String
  | startStateEmpty => "START_STATE_EMPTY"
  | terminalStateEmpty => "TERMINAL_STATE_EMPTY"
  | invalidMaxTapeLength _ => "INVALID_MAX_TAPE_LENGTH"
  | invalidMoveDirection _ => "INVALID_MOVE_DIRECTION"
  | unexpectedSymbol .. => "UNEXPECTED_SYMBOL"
  | stateNotFound .. => "STATE_NOT_FOUND"
  | transitionNotFound .. => "TRANSITION_NOT_FOUND"
  | infiniteLoop .. => "INFINITE_LOOP"
  | tapeOver .. => "TAPE_OVER"
  | carriageOverflow .. => "CARRIAGE_OVERFLOW"
  | stepsExceeded _ => "STEPS_EXCEEDED"
  | cancelled => "CANCELLED"
  | parseTransition .. => "PARSE_TRANSITION"
  | columnOutOfRange .. => "COLUMN_OUT_OF_RANGE"
  | noTransitions => "NO_TRANSITIONS"
  | fileNotFound _ => "FILE_NOT_FOUND"
  | fileError _ => "FILE_ERROR"
  | configError _ => "CONFIG_ERROR"
  | programNotFound _ => "PROGRAM_NOT_FOUND"

/-- The phase of an error. A symbol outside the alphabet belongs to the phase that found it. -/
def category : Error → ErrorCategory
  | startStateEmpty | terminalStateEmpty | invalidMaxTapeLength _ | invalidMoveDirection _
  | unexpectedSymbol _ _ .written | stateNotFound .. | configError _ | programNotFound _ =>
    .configuration
  | unexpectedSymbol _ _ .read | transitionNotFound .. | infiniteLoop .. | tapeOver ..
  | carriageOverflow .. | stepsExceeded _ | cancelled => .execution
  | parseTransition .. | columnOutOfRange .. | noTransitions | fileNotFound _ | fileError _ =>
    .parse

/-- The message of an error. Names and symbols in it are quoted. -/
def message : Error → String
  | startStateEmpty => "start state is empty"
  | terminalStateEmpty => "terminal state is empty"
  | invalidMaxTapeLength cells => "invalid max tape length: " ++ toString cells
  | invalidMoveDirection offset => "invalid move direction: " ++ offset
  | unexpectedSymbol state symbol origin =>
    "unexpected symbol " ++ quotedSymbol symbol ++ " " ++ origin.word ++ " in state " ++
      quoted state
  | stateNotFound state source symbol =>
    "state not found: " ++ quoted state ++ " (referenced from state " ++ quoted source ++
      ", symbol " ++ quotedSymbol symbol ++ ")"
  | transitionNotFound state symbol =>
    "transition not found: state " ++ quoted state ++ ", symbol " ++ quotedSymbol symbol
  | infiniteLoop state symbol =>
    "infinite loop: state " ++ quoted state ++ ", symbol " ++ quotedSymbol symbol
  | tapeOver cells carriage =>
    "tape is over: " ++ toString cells ++ " cells used, carriage at " ++ toString carriage.toInt
  | carriageOverflow state carriage =>
    "carriage moved past cell " ++ toString carriage.toInt ++ " in state " ++ quoted state
  | stepsExceeded steps => "steps exceeded: " ++ toString steps
  | cancelled => "cancelled"
  | parseTransition field reason => "parse transition " ++ quoted field ++ ": " ++ reason
  | columnOutOfRange line column =>
    "line " ++ toString line ++ ": field " ++ toString column ++
      " has no state in the header row"
  | noTransitions => "no transitions"
  | fileNotFound path => "file " ++ path ++ " does not exist"
  | fileError reason => "File error: " ++ reason
  | configError reason => "Configuration error: " ++ reason
  | programNotFound name => "program not found: " ++ name

end Error

end TapeMachine
