import TapeMachine.Text.Utf8

/-!
# Paths

A path is made of names with `/` between them. Names and paths are bytes of any kind, and messages
show them as text, as far as they are text.
-/

namespace TapeMachine

/-- The name of an item within its directory. -/
abbrev FileName := List UInt8

/-- The name that a text spells. -/
def FileName.ofString (s : String) : FileName :=
  Text.utf8 s.toList

/-- A path, of a directory or a file. -/
structure Path where
  /-- The bytes of the path. -/
  bytes : List UInt8
  deriving DecidableEq

namespace Path

/-- The path that a text spells. -/
def ofString (s : String) : Path :=
  ⟨FileName.ofString s⟩

/-- A path as messages show it. -/
def shown (path : Path) : String :=
  Text.shown path.bytes

/-- The byte of `/`. -/
def separator : UInt8 := 0x2f

/-- The path leads on from the root, wherever one is. -/
def isAbsolute (path : Path) : Bool :=
  path.bytes.head? = some separator

/-- The names of a path. -/
def names (path : Path) : List FileName :=
  path.bytes.splitOn separator

/-- The path of an item of a directory. -/
def join (directory : Path) (name : FileName) : Path :=
  if directory.bytes.getLast?.all (· = separator) then ⟨directory.bytes ++ name⟩
  else ⟨directory.bytes ++ separator :: name⟩

end Path

end TapeMachine
