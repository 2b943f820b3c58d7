import TapeMachine.Config.Basic
import TapeMachine.Machine.Basic
import TapeMachine.Table.Reader

/-!
# The catalogue

Three programs that come with the library, each as a state table with a configuration to run it
under and an input to try. They compute on numbers written in unary, where `n + 1` ones stand
for `n`.
-/

namespace TapeMachine

/-- A program of the catalogue. -/
structure CatalogueEntry where
  /-- Its name. -/
  name : String
  /-- Its state table. -/
  text : String
  /-- The configuration to run it under. -/
  config : Config
  /-- An input to try, laid out from cell `0` with the carriage there. -/
  exampleInput : String

namespace Catalogue

/-- Adds one: runs left over the ones and writes another. -/
def increment : CatalogueEntry where
  name := "increment"
  text :=
    "Increment\n" ++
    "f(x) = x + 1 for a unary number (n is written as n + 1 ones).\n" ++
    "Start on the leftmost one.\n" ++
    "\n" ++
    "\tQ1\n" ++
    "1\t1<1\n" ++
    " \t1.0\n"
  config := { alphabet := "1", maxTapeLength := 1000, maxSteps := 1000 }
  exampleInput := "111"

/-- Adds two numbers: joins them with a one and takes two ones away. -/
def addition : CatalogueEntry where
  name := "addition"
  text :=
    "Addition\n" ++
    "f(x, y) = x + y for unary numbers separated by '+'.\n" ++
    "Start on the leftmost one of x.\n" ++
    "\n" ++
    "\tQ1\tQ2\tQ3\n" ++
    "1\t_>2\t1>2\t_.0\n" ++
    "+\t\t1>2\t\n" ++
    " \t\t_<3\t\n" ++
    "\n" ++
    "Saved tape:\n" ++
    "111+11\n"
  config := { alphabet := "1+", maxTapeLength := 1000, maxSteps := 10000 }
  exampleInput := "111+11"

/-- Triples a number: for every one taken away on the right, three are written on the left. -/
def triple : CatalogueEntry where
  name := "triple"
  text :=
    "Triple\n" ++
    "f(x) = 3x for a unary number.\n" ++
    "Start on the leftmost one.\n" ++
    "\n" ++
    "\tQ1\tQ2\tQ3\tQ4\tQ5\tQ6\tQ7\n" ++
    "1\t*>2\t1>2\t_<4\t1<4\t\t\t1>7\n" ++
    "*\t\t\t1.0\t*<4\t\t\t*>7\n" ++
    " \t\t_<3\t\t1<5\t1<6\t1>7\t_<3\n"
  config := { alphabet := "1*", maxTapeLength := 10000, maxSteps := 100000 }
  exampleInput := "111"

/-- The programs, in order. -/
def all : List CatalogueEntry :=
  [increment, addition, triple]

/-- The program of a name. -/
def byName (name : String) : Except Error CatalogueEntry :=
  match all.find? fun e => e.name = name with
  | some e => .ok e
  | none => .error (.programNotFound name)

/-- The program at a place in the catalogue, counted from `0`. -/
def byIndex (i : Nat) : Except Error CatalogueEntry :=
  match all[i]? with
  | some e => .ok e
  | none => .error (.programNotFound ("#" ++ toString i))

end Catalogue

namespace CatalogueEntry

/-- Reads the state table. -/
def program (e : CatalogueEntry) : Logged Program :=
  Table.read (Delivery.ofText e.text)

/-- Builds the machine. -/
def machine (e : CatalogueEntry) : Logged Machine := do
  Machine.build e.config (← e.program)

/-- What a list of the catalogue says of a program. -/
structure Summary where
  /-- Its name. -/
  name : String
  /-- The symbols of its configuration. -/
  alphabet : String
  /-- The number of its states. -/
  stateCount : Nat
  /-- The number of its transitions. -/
  transitionCount : Nat

/-- Sums a program up. -/
def summary (e : CatalogueEntry) : Logged Summary := do
  let p ← e.program
  return ⟨e.name, e.config.alphabet, p.stateCount, p.transitionCount⟩

end CatalogueEntry

end TapeMachine
