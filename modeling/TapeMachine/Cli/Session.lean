import TapeMachine.Catalogue
import TapeMachine.Cli.Options
import TapeMachine.Files.Loader
import TapeMachine.Machine.Run
import TapeMachine.Tape.Render

/-!
# A session on the command line

A session gets a program and a configuration, builds the machine, runs it on the input and
prints the tape on which it halts. If the configuration names no symbols, the alphabet is taken
from the program. In a debug session the configuration is printed before the first step and
after every step that goes on.

A session can run as long as its machine; it counts down the steps it may still make and gives
nothing if they do not suffice.
-/

namespace TapeMachine

/-! ## Showing a run -/

namespace Configuration

/-- A configuration on one line. -/
def line (x : Configuration) : String :=
  "Step: " ++ toString x.steps ++ ", State: " ++ x.state ++ ", Carriage: " ++
    toString x.carriage.toInt ++ ", Tape: [" ++ x.tape.render ++ "]"

end Configuration

namespace Machine

/-- The lines printed when a shown run halts, before the tape. -/
def haltedLines : List String :=
  ["", "Machine halted.", "", "Final tape:"]

/-- Makes steps and prints the configuration after each that goes on; `printed` are the lines
printed so far. -/
def showSteps (m : Machine) (cancelled : Bool) :
    Nat → Configuration → Array String → Option (Except Error Tape × Array String)
  | 0, _, _ => none
  | fuel + 1, x, printed =>
    if cancelled then some (.error .cancelled, printed)
    else
      let s := m.step x
      match s.result with
      | .ok .moved => m.showSteps cancelled fuel s.after (printed.push s.after.line)
      | .ok .halted => some (.ok s.after.tape, printed ++ haltedLines)
      | .error e => some (.error e, printed)

/-- Runs from a configuration and prints it and every later one. -/
def showRun (m : Machine) (cancelled : Bool) (fuel : Nat) (x : Configuration) :
    Option (Except Error Tape × Array String) :=
  m.showSteps cancelled fuel x #[x.line]

end Machine

namespace Cli

/-! ## Setting up -/

/-- What a session reads: what stands at each path, and the bytes of the standard input, unless
that is a terminal. -/
structure Inputs where
  /-- What stands at a path. -/
  access : Path → Access
  /-- The standard input. -/
  stdin : Option (List UInt8)

/-- Why a session without a program ends. -/
def noProgram : String :=
  "no program given: pass a file, --builtin, or pipe a program into stdin"

/-- The program of a session, with the configuration and the input that come with it. -/
def loadProgram (o : Options) (inputs : Inputs) : Logged (Program × Config × String) :=
  match o.builtin, o.program, inputs.stdin with
  | some name, _, _ => do
    let e ← Catalogue.byName name
    return (← e.program, e.config, e.exampleInput)
  | none, some file, _ => do
    let path := Path.ofString file
    return (← Loader.loadProgram path (inputs.access path) false, {}, "")
  | none, none, some bytes => do
    return (← Table.read (Delivery.ofBytes bytes), {}, "")
  | none, none, none => throw (.fileError noProgram)

/-- The configuration with what the options say put in its place. -/
def override (o : Options) (c : Config) : Config where
  alphabet := o.alphabet.getD c.alphabet
  startState := o.start.getD c.startState
  terminalState := o.terminal.getD c.terminalState
  maxTapeLength := o.maxTapeLength.getD c.maxTapeLength
  maxSteps := o.maxSteps.getD c.maxSteps

/-- The configuration with an alphabet: its own, or else the symbols of the program. -/
def withAlphabet (c : Config) (p : Program) : Logged Config :=
  if c.alphabet = "" then do
    note [.alphabetInferred p.symbols.text]
    return { c with alphabet := p.symbols.text }
  else return c

/-- The machine of a session and the configuration it starts in. -/
def setUp (o : Options) (inputs : Inputs) : Logged (Machine × Configuration) := do
  let (p, config, input) ← loadProgram o inputs
  let config ← match o.config with
    | some file =>
      let path := Path.ofString file
      Loader.loadConfig path (inputs.access path)
    | none => pure config
  let m ← Machine.build (← withAlphabet (override o config) p) p
  let tape := Tape.ofString (o.input.getD input) 0
  return (m, m.start (o.carriage.getD 0) tape)

/-! ## The session -/

/-- How a session ended. -/
structure Outcome where
  /-- The exit code. -/
  code : UInt8
  /-- The lines printed. -/
  printed : Array String
  /-- The error that ended the session. -/
  error : Option Error
  /-- What was noted on the way. -/
  events : Array Event
  deriving Inhabited

/-- The outcome of a session that gave a tape or an error after printing some lines. -/
def conclude (printed : Array String) (events : Array Event) : Except Error Tape → Outcome
  | .ok tape => ⟨0, printed.push tape.render, none, events⟩
  | .error e => ⟨1, printed, some e, events⟩

/-- The line of a program in the list of the catalogue. -/
def summaryLine (s : CatalogueEntry.Summary) : String :=
  s.name ++ "\talphabet " ++ Text.quoted s.alphabet ++ ", " ++ toString s.stateCount ++
    " states, " ++ toString s.transitionCount ++ " transitions"

/-- The summaries of the programs in the catalogue that can be read. -/
def summaries : StateM Journal (List CatalogueEntry.Summary) := do
  let results ← Catalogue.all.mapM fun e => e.summary.run
  return results.filterMap Except.toOption

/-- Lists the catalogue. -/
def listCatalogue (j : Journal) : Outcome :=
  let (listed, j) := summaries.run j
  ⟨0, (listed.map summaryLine).toArray, none, j.events⟩

/-- The journal of a session: warnings only, or everything but steps and fields. -/
def journal (o : Options) : Journal :=
  ⟨if o.verbose then .debug else .warn, #[]⟩

/-- A session with given options, in at most `fuel` steps of the machine. -/
def run (o : Options) (inputs : Inputs) (fuel : Nat) : Option Outcome :=
  if o.list then some (listCatalogue (journal o))
  else
    match (setUp o inputs).run.run (journal o) with
    | (.error e, j) => some (conclude #[] j.events (.error e))
    | (.ok (m, x), j) =>
      if o.debug then
        (m.showRun false fuel x).map fun (result, printed) => conclude printed j.events result
      else
        (m.run false fuel x j).map fun (result, j) => conclude #[] j.events result

/-- The name and version of the program. -/
def versionLine : String := "turtab-cli 0.0.1"

/-- What is printed when help is asked for. -/
def helpLines : List String :=
  ["Runs a single-tape Turing machine program written as a tab-delimited state table",
   "",
   "Usage: turtab-cli [OPTIONS] [PROGRAM]",
   "",
   "Arguments:",
   "  [PROGRAM]  The state-table program file (.tur); read from stdin if not given",
   "",
   "Options:",
   "  -b, --builtin <NAME>           Run a built-in program instead of a file",
   "      --list                     List the built-in programs and exit",
   "  -c, --config <FILE>            JSON machine configuration file",
   "  -a, --alphabet <SYMBOLS>       Tape symbols; taken from the program if not configured",
   "      --start <STATE>            Start state",
   "      --terminal <STATE>         Terminal state",
   "      --max-tape-length <CELLS>  Maximum number of occupied tape cells",
   "      --max-steps <STEPS>        Maximum number of steps, 0 for no limit",
   "  -i, --input <TEXT>             The input tape, written from cell 0; '_' is a blank cell",
   "      --carriage <CELL>          The initial carriage position",
   "  -d, --debug                    Print each step of the execution",
   "  -v, --verbose                  Log machine and parser activity",
   "  -h, --help                     Print help",
   "  -V, --version                  Print version"]

/-- A session with given arguments, in at most `fuel` steps of the machine. -/
def runArguments (args : List String) (inputs : Inputs) (fuel : Nat) : Option Outcome :=
  match Options.parse args with
  | .ok o => run o inputs fuel
  | .error .version => some ⟨0, #[versionLine], none, #[]⟩
  | .error .help => some ⟨0, helpLines.toArray, none, #[]⟩
  | .error (.misuse _) => some ⟨2, #[], none, #[]⟩

end Cli

end TapeMachine
