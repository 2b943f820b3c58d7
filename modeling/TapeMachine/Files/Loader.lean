import TapeMachine.Config.Json
import TapeMachine.Files.Access
import TapeMachine.Table.Reader

/-!
# Loading programs and configurations

A program is loaded from what stands at a path. From a directory every plain file with the
extension `tur` is loaded, in the order of their names; each file has a result of its own, so
that a broken program does not hide the others.
-/

namespace TapeMachine

namespace Loader

/-! ## One program -/

/-- Puts the path before the reason of a file error. -/
def blame (path : Path) : Error → Error
  | .fileError reason => .fileError (path.shown ++ ": " ++ reason)
  | e => e

/-- Reads what stands at a path as a state table. A directory can be opened, but breaks off when
its first line is asked for. -/
def loadProgram (path : Path) (found : Access) (cancelled : Bool) : Logged Program :=
  match found with
  | .absent _ => throw (.fileNotFound path.shown)
  | .closed reason => throw (.fileError ("cannot open " ++ path.shown ++ ": " ++ reason))
  | .directory _ =>
    readAs [.error (Delivery.unreadable Access.isADirectory)]
  | .file bytes => readAs (Delivery.ofBytes bytes)
where
  /-- Reads deliveries, and blames the path if they break off. -/
  readAs (deliveries : List Delivery) : Logged Program :=
    (Table.read (Delivery.withCancel cancelled deliveries)).adapt (blame path)

/-! ## All programs of a directory -/

/-- The byte of `.`. -/
def point : UInt8 := 0x2e

/-- The extension of programs, `tur`. -/
def programExtension : List UInt8 := [0x74, 0x75, 0x72]

/-- The extension of a file name: what follows its last point, if something stands before that
point. -/
def extension? (name : FileName) : Option (List UInt8) :=
  let after := (name.reverse.takeWhile (· ≠ point)).reverse
  match name.reverse.dropWhile (· ≠ point) with
  | _ :: _ :: _ => some after
  | _ => none

/-- The plain files with the extension of programs, in the order of their names. -/
def programFiles (items : List DirectoryItem) : List (FileName × List UInt8) :=
  (items.filterMap fun item => item.content.bind fun bytes =>
    if extension? item.name = some programExtension then some (item.name, bytes)
    else none).mergeSort fun a b => a.1 ≤ b.1

/-- Loads a program of a directory, with its path. A failure is noted in the journal. -/
def loadFile (path : Path) (bytes : List UInt8) :
    StateM Journal (Except Error (Path × Program)) := do
  match ← (loadProgram path (.file bytes) false).run with
  | .ok p => return .ok (path, p)
  | .error e =>
    modify fun j => j.record (.programSkipped path.shown e)
    return .error e

/-- Loads every program directly in a directory. If there is no directory at the path, the only
result is an error. -/
def loadPrograms (path : Path) (found : Access) :
    StateM Journal (List (Except Error (Path × Program))) :=
  match found with
  | .absent _ => return [.error (.fileNotFound path.shown)]
  | .closed reason => return [.error (.fileError (path.shown ++ ": " ++ reason))]
  | .file _ => return [.error (.fileError (path.shown ++ ": " ++ Access.notADirectory))]
  | .directory items =>
    (programFiles items).mapM fun (name, bytes) => loadFile (path.join name) bytes

/-! ## Configurations -/

/-- Reads what stands at a path as a configuration in JSON. -/
def loadConfig (path : Path) (found : Access) : Except Error Config :=
  match found with
  | .absent reason | .closed reason => .error (unreadable reason)
  | .directory _ => .error (unreadable Access.isADirectory)
  | .file bytes =>
    match String.fromUTF8? ⟨bytes.toArray⟩ with
    | some text => Config.parse text
    | none => .error (unreadable Delivery.notUtf8)
where
  /-- The error of a file that cannot be read for the given reason. -/
  unreadable (reason : String) : Error :=
    .fileError ("Failed to read file " ++ path.shown ++ ": " ++ reason)

end Loader

end TapeMachine
