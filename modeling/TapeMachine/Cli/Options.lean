import TapeMachine.Text.Numeral

/-!
# Command line options

Arguments are taken from left to right, and the first that cannot be understood ends the
reading. An option has a long name, written after `--`, and some have a short one, written after
`-`; several short ones can be joined. A value stands in the next argument or is attached: after
`=` to a long name, directly or after `=` to a short one. A value in an argument of its own must
not begin with `-`, unless it is `-` itself or the option takes signed numbers. After `--` every
argument is positional. There can be one positional argument, the file of the program.
-/

namespace TapeMachine.Cli

/-! ## Options -/

/-- The options that take a value. -/
inductive ValueOption where
  | builtin
  | config
  | alphabet
  | start
  | terminal
  | maxTapeLength
  | maxSteps
  | input
  | carriage
  deriving DecidableEq

/-- The options that are switched on. -/
inductive Switch where
  | list
  | debug
  | verbose
  deriving DecidableEq

/-- What an option asks for. -/
inductive Flag where
  | value (v : ValueOption)
  | switch (s : Switch)
  | version
  | help
  deriving DecidableEq

/-- The long names. -/
def longNames : List (String × Flag) :=
  [("builtin", .value .builtin), ("list", .switch .list), ("config", .value .config),
   ("alphabet", .value .alphabet), ("start", .value .start), ("terminal", .value .terminal),
   ("max-tape-length", .value .maxTapeLength), ("max-steps", .value .maxSteps),
   ("input", .value .input), ("carriage", .value .carriage), ("debug", .switch .debug),
   ("verbose", .switch .verbose), ("help", .help), ("version", .version)]

/-- The short names. -/
def shortNames : List (Char × Flag) :=
  [('b', .value .builtin), ('c', .value .config), ('a', .value .alphabet), ('i', .value .input),
   ('d', .switch .debug), ('v', .switch .verbose), ('h', .help), ('V', .version)]

/-- The option takes signed numbers, so that its value may begin with `-`. -/
def ValueOption.takesHyphen : ValueOption → Bool
  | carriage => true
  | _ => false

/-- What the arguments ask for. -/
structure Options where
  /-- The file of the program. -/
  program : Option String := none
  /-- The name of a program of the catalogue. -/
  builtin : Option String := none
  /-- The file of the configuration. -/
  config : Option String := none
  /-- The symbols of the tape. -/
  alphabet : Option String := none
  /-- The start state. -/
  start : Option String := none
  /-- The terminal state. -/
  terminal : Option String := none
  /-- The limit on occupied cells. -/
  maxTapeLength : Option UInt64 := none
  /-- The limit on steps. -/
  maxSteps : Option UInt64 := none
  /-- The text of the tape. -/
  input : Option String := none
  /-- The cell the carriage begins on. -/
  carriage : Option Int64 := none
  /-- List the catalogue and do nothing else. -/
  list : Bool := false
  /-- Show every step. -/
  debug : Bool := false
  /-- Keep a journal of everything but steps and fields. -/
  verbose : Bool := false
  deriving DecidableEq

/-- Why there is nothing to run. -/
inductive Exit where
  /-- The version was asked for. -/
  | version
  /-- Help was asked for. -/
  | help
  /-- The arguments cannot be understood. -/
  | misuse (reason : String)
  deriving DecidableEq

namespace Options

/-! ## Single arguments -/

/-- Fills an empty place. -/
def fill {α : Type} (place : Option α) (value : Option α) : Option (Option α) :=
  match place, value with
  | none, some a => some (some a)
  | _, _ => none

/-- A text that may not be empty. -/
def nonEmpty (s : String) : Option String :=
  if s = "" then none else some s

/-- Gives an option its value. Refused if the option has one already or cannot have this one. -/
def setValue? (o : Options) (v : ValueOption) (s : String) : Option Options :=
  match v with
  | .builtin => (fill o.builtin (some s)).map fun x => { o with builtin := x }
  | .config => (fill o.config (nonEmpty s)).map fun x => { o with config := x }
  | .alphabet => (fill o.alphabet (some s)).map fun x => { o with alphabet := x }
  | .start => (fill o.start (some s)).map fun x => { o with start := x }
  | .terminal => (fill o.terminal (some s)).map fun x => { o with terminal := x }
  | .maxTapeLength =>
    (fill o.maxTapeLength (Text.uint64? s.toList)).map fun x => { o with maxTapeLength := x }
  | .maxSteps => (fill o.maxSteps (Text.uint64? s.toList)).map fun x => { o with maxSteps := x }
  | .input => (fill o.input (some s)).map fun x => { o with input := x }
  | .carriage => (fill o.carriage (Text.int64? s.toList)).map fun x => { o with carriage := x }

/-- Switches an option on. Refused if it is on already. -/
def setSwitch? (o : Options) : Switch → Option Options
  | .list => if o.list then none else some { o with list := true }
  | .debug => if o.debug then none else some { o with debug := true }
  | .verbose => if o.verbose then none else some { o with verbose := true }

/-- Takes the positional argument. Refused if it is empty or there is one already. -/
def setProgram? (o : Options) (s : String) : Option Options :=
  (fill o.program (nonEmpty s)).map fun x => { o with program := x }

/-- The options, or a complaint about an argument. -/
def orMisuse (arg : String) : Option Options → Except Exit Options
  | some o => .ok o
  | none => .error (.misuse ("unexpected argument or value: " ++ arg))

/-- The options after short names that are joined in one argument, and the option among them that
still wants a value: the last one, with nothing attached to it. -/
def shorts (o : Options) (arg : String) : List Char → Except Exit (Options × Option ValueOption)
  | [] => .ok (o, none)
  | c :: rest =>
    match shortNames.lookup c with
    | none => .error (.misuse ("unknown option: " ++ arg))
    | some .version => .error .version
    | some .help => .error .help
    | some (.switch s) => do shorts (← orMisuse arg (o.setSwitch? s)) arg rest
    | some (.value v) =>
      match rest with
      | [] => .ok (o, some v)
      | '=' :: value => do return (← orMisuse arg (o.setValue? v (String.ofList value)), none)
      | value => do return (← orMisuse arg (o.setValue? v (String.ofList value)), none)

/-- The options after a long name with what is attached to it after `=`, and the option if it
still wants a value. -/
def long (o : Options) (arg : String) (name : String) (attached : Option String) :
    Except Exit (Options × Option ValueOption) :=
  match longNames.lookup name, attached with
  | none, _ => .error (.misuse ("unknown option: " ++ arg))
  | some (.value v), some value => do return (← orMisuse arg (o.setValue? v value), none)
  | some (.value v), none => .ok (o, some v)
  | some _, some _ => .error (.misuse ("unexpected value: " ++ arg))
  | some (.switch s), none => do return (← orMisuse arg (o.setSwitch? s), none)
  | some .version, none => .error .version
  | some .help, none => .error .help

/-- The name and the attached value of a long option, from the characters after `--`. -/
def divide (s : List Char) : String × Option String :=
  (String.ofList (s.takeWhile (· ≠ '=')),
    match s.dropWhile (· ≠ '=') with
    | _ :: value => some (String.ofList value)
    | [] => none)

/-- One argument that names options. -/
def named (o : Options) (arg : String) : Except Exit (Options × Option ValueOption) :=
  match arg.toList with
  | '-' :: '-' :: s => o.long arg (divide s).1 (divide s).2
  | s => o.shorts arg s.tail

/-- The argument names options: it begins with `-` and is not `-` itself. -/
def isNamed (arg : String) : Bool :=
  match arg.toList with
  | '-' :: _ :: _ => true
  | _ => false

/-! ## All arguments -/

/-- Takes positional arguments only. -/
def positionals (o : Options) : List String → Except Exit Options
  | [] => .ok o
  | arg :: rest => do positionals (← orMisuse arg (o.setProgram? arg)) rest

/-- Takes arguments from left to right. -/
def take (o : Options) : List String → Except Exit Options
  | [] => .ok o
  | arg :: rest =>
    if arg = "--" then o.positionals rest
    else if isNamed arg then
      match o.named arg with
      | .error e => .error e
      | .ok (o, none) => take o rest
      | .ok (o, some v) =>
        match rest with
        | [] => .error (.misuse ("missing value: " ++ arg))
        | value :: rest =>
          if isNamed value && !v.takesHyphen then .error (.misuse ("missing value: " ++ arg))
          else
            match orMisuse value (o.setValue? v value) with
            | .error e => .error e
            | .ok o => take o rest
    else
      match orMisuse arg (o.setProgram? arg) with
      | .error e => .error e
      | .ok o => take o rest

/-- What a list of arguments asks for. A program comes from a file or from the catalogue, not
from both. -/
def parse (args : List String) : Except Exit Options := do
  let o ← take {} args
  if o.builtin.isSome && o.program.isSome then
    .error (.misuse "a program file cannot be used with --builtin")
  else .ok o

end Options

end TapeMachine.Cli
