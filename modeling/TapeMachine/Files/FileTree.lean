import TapeMachine.Files.Access

/-!
# File systems

A file system is a tree of directories and plain files with a place in it to work from. A path leads
from the root or from that place through one name after the other: an empty name and `.` stay in the
directory reached so far, and `..` goes back to the one above. Above the root there is the root.
-/

namespace TapeMachine

/-- A plain file, or a directory of named trees. -/
inductive FileTree where
  | file (bytes : List UInt8)
  | directory (items : List (FileName × FileTree))
  deriving Inhabited

namespace FileTree

/-- The directory without items. -/
def empty : FileTree :=
  directory []

/-! ## Names on the way -/

/-- The name `.`. -/
def dot : FileName := [0x2e]

/-- The name `..`. -/
def dots : FileName := [0x2e, 0x2e]

/-- Follows names from the tree `here`; `above` are the directories passed, nearest first. Gives
the tree they lead to, or the reason why they lead nowhere. -/
def follow (above : List FileTree) (here : FileTree) : List FileName → Except String FileTree
  | [] => .ok here
  | name :: rest =>
    match here with
    | file _ => .error Access.notADirectory
    | directory items =>
      if name = [] ∨ name = dot then follow above here rest
      else if name = dots then
        match above with
        | [] => follow [] here rest
        | parent :: above => follow above parent rest
      else
        match items.lookup name with
        | some t => follow (here :: above) t rest
        | none => .error Access.noSuchEntry

/-- The item of a directory that a named tree makes. -/
def item : FileName × FileTree → DirectoryItem
  | (name, file bytes) => ⟨name, some bytes⟩
  | (name, directory _) => ⟨name, none⟩

/-! ## Adding -/

/-- Replaces or adds an item. -/
def put (items : List (FileName × FileTree)) (name : FileName) (t : FileTree) :
    List (FileName × FileTree) :=
  items.filter (fun item => item.1 ≠ name) ++ [(name, t)]

/-- Puts `new` at the end of a list of names, with the directories on the way. A directory that
is already there is kept. -/
def addAt (new : FileTree) : List FileName → FileTree → FileTree
  | [], old =>
    match new, old with
    | directory [], directory items => directory items
    | _, _ => new
  | name :: rest, directory items =>
    directory (put items name (addAt new rest ((items.lookup name).getD empty)))
  | _ :: _, file bytes => file bytes

/-- The place a name leads to from the place `here`. A place is the list of names that lead to it
straight from the root. -/
def place (here : List FileName) (name : FileName) : List FileName :=
  if name = [] ∨ name = dot then here
  else if name = dots then here.dropLast
  else here ++ [name]

/-- Follows names from the place `here`, makes the directories passed that are not there yet, and
puts `new` at the place the last name leads to. -/
def addAlong (new : FileTree) (here : List FileName) : List FileName → FileTree → FileTree
  | [], root => addAt new here root
  | [name], root => addAt new (place here name) root
  | name :: rest, root =>
    addAlong new (place here name) rest (addAt empty (place here name) root)

end FileTree

/-! ## File systems -/

/-- Everything from the root down, and the directory a program works in. -/
structure FileSystem where
  /-- The tree of the root. -/
  root : FileTree
  /-- The names that lead to the working directory straight from the root. -/
  working : List FileName

namespace FileSystem

/-- The place a path leads on from: the root, or the working directory. -/
def start (system : FileSystem) (path : Path) : List FileName :=
  if path.isAbsolute then [] else system.working

/-- What stands at a path. The empty path leads nowhere. -/
def access (system : FileSystem) (path : Path) : Access :=
  if path.bytes = [] then .absent Access.noSuchEntry
  else
    match FileTree.follow [] system.root (system.start path ++ path.names) with
    | .error reason => .absent reason
    | .ok (.file bytes) => .file bytes
    | .ok (.directory items) => .directory (items.map FileTree.item)

/-- Puts `new` at a path, with all directories the path passes through. -/
def add (system : FileSystem) (path : Path) (new : FileTree) : FileSystem :=
  { system with
    root := FileTree.addAlong new (system.start path) path.names system.root }

end FileSystem

end TapeMachine
