import TapeMachine.Files.Path

/-!
# What stands at a path

A program that is given a path finds one of four things there: nothing, something it may not
open, a directory, or a plain file. The reasons for a failure are in the words of the operating
system.
-/

namespace TapeMachine

/-- An item of a directory: its name, and its bytes if it is a plain file. -/
structure DirectoryItem where
  /-- The name within the directory. -/
  name : FileName
  /-- The bytes of a plain file; `none` for anything else. -/
  content : Option (List UInt8)

/-- What stands at a path. -/
inductive Access where
  /-- Nothing, for the given reason. -/
  | absent (reason : String)
  /-- Something that cannot be opened, for the given reason. -/
  | closed (reason : String)
  /-- A directory, with its items in no particular order. -/
  | directory (items : List DirectoryItem)
  /-- A plain file. -/
  | file (bytes : List UInt8)

namespace Access

/-- The reason given when a name does not occur in its directory. -/
def noSuchEntry : String := "No such file or directory (os error 2)"

/-- The reason given when something that is no directory is used as one. -/
def notADirectory : String := "Not a directory (os error 20)"

/-- The reason given when a directory is read as a file. -/
def isADirectory : String := "Is a directory (os error 21)"

end Access

end TapeMachine
