import TapeMachine.Cli.Session

/-!
# The command line program

Reads the arguments, the files they name and the standard input, lets `Cli.runArguments` decide
what is done, and prints the outcome: its lines to the standard output, its error and what was
noted on the way to the standard error.
-/

namespace TapeMachine.Main

open Cli

/-- What a failure to read a file says of its path. The codes of the operating system come with
either sign; 20 says that something on the way is no directory, 21 that the path leads to one. -/
def accessOfError : IO.Error → Access
  | .noFileOrDirectory .. => .absent Access.noSuchEntry
  | .inappropriateType filename code details =>
    if code = 20 ∨ code + 20 = 0 then .absent Access.notADirectory
    else if code = 21 ∨ code + 21 = 0 then .directory []
    else .closed (toString (IO.Error.inappropriateType filename code details))
  | e => .closed (toString e)

/-- What stands at a path of the file system, read as a plain file. -/
def access (path : String) : IO Access := do
  try
    return .file (← IO.FS.readBinFile path).toList
  catch e => return accessOfError e

/-- All bytes of a stream. -/
partial def readAll (stream : IO.FS.Stream) (bytes : ByteArray) : IO ByteArray := do
  let more ← stream.read 65536
  if more.isEmpty then return bytes else readAll stream (bytes ++ more)

/-- The standard input, unless it is a terminal. -/
def standardInput : IO (Option (List UInt8)) := do
  let stdin ← IO.getStdin
  if ← stdin.isTty then return none
  else return some (← readAll stdin ByteArray.empty).toList

/-- What stands at the paths the arguments name, and the standard input if a program is to come
from there. -/
def inputs (args : List String) : IO Inputs := do
  match Options.parse args with
  | .error _ => return ⟨fun _ => .absent Access.noSuchEntry, none⟩
  | .ok o =>
    let paths := if o.list then [] else o.program.toList ++ o.config.toList
    let found ← paths.mapM fun path => return (Path.ofString path, ← access path)
    let stdin ←
      if o.list || o.program.isSome || o.builtin.isSome then pure none else standardInput
    return ⟨fun path => (found.lookup path).getD (.absent Access.noSuchEntry), stdin⟩

/-- Tries ever more steps until the session ends. -/
partial def untilEnded (session : Nat → Option Outcome) (fuel : Nat) : IO Outcome :=
  match session fuel with
  | some outcome => return outcome
  | none => untilEnded session (2 * fuel)

/-- Complains about arguments that cannot be understood. -/
def complain (args : List String) : IO Unit :=
  match Options.parse args with
  | .error (.misuse reason) => IO.eprintln ("error: " ++ reason)
  | _ => pure ()

end TapeMachine.Main

/-- Runs a session with the given arguments. -/
def main (args : List String) : IO UInt32 := do
  let inputs ← TapeMachine.Main.inputs args
  let session := TapeMachine.Cli.runArguments args inputs
  let outcome ← TapeMachine.Main.untilEnded session 65536
  TapeMachine.Main.complain args
  for e in outcome.events do
    IO.eprintln (e.level.name ++ " " ++ e.message)
  for line in outcome.printed do
    IO.println line
  if let some e := outcome.error then
    IO.eprintln ("Error [" ++ e.code ++ "]: " ++ e.message)
  return outcome.code.toUInt32
