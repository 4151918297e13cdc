import TokenDump.Fault
import TokenDump.Utf8

/-!
# Files

A file tree holds files and directories by location. A path is walked name by name from the root or
from the working directory. Each step needs a directory to stand in: an empty name and `.` stay
there, `..` goes to the parent, any other name is looked up. So a path that ends in a slash is not
the path of a file.
-/

namespace TokenDump

/-- A name within a directory. -/
abbrev Name := List UInt8

/-- A path as it is given to the program. -/
abbrev Path := List UInt8

/-- A place in a file tree: the names from there up to the root, the innermost first. -/
abbrev Location := List Name

namespace Path

def slash : UInt8 := 47

/-- No path of this many bytes or more can be used. -/
def lengthLimit : Nat := 4096

/-- No name can have more bytes. -/
def nameLimit : Nat := 255

/-- The names between the slashes of a path, empty ones included. -/
def names (path : Path) : List Name :=
  path.foldr
    (fun byte names => if byte = slash then [] :: names else names.modifyHead (byte :: ·)) [[]]

end Path

namespace Location

/-- Where the programs of a file tree run. -/
def working : Location :=
  ["work", "tmp"].map fun name => Utf8.encode name.toList

/-- The place that a path starts from. -/
def start (path : Path) : Location :=
  if path.head? = some Path.slash then [] else working

/-- The place that a name leads to. -/
def enter (location : Location) (name : Name) : Location :=
  if name = [] ∨ name = [46] then location
  else if name = [46, 46] then location.tail
  else name :: location

/-- The place of a path in a tree where every name on the way is a directory. -/
def ofPath (path : Path) : Location :=
  path.names.foldl enter (start path)

end Location

/-- What is at a location. -/
inductive FileTree.Node where
  | file (data : List UInt8)
  | directory
deriving DecidableEq, Repr

/-- Files and directories; a later entry for a location stands before an earlier one. -/
structure FileTree where
  entries : List (Location × FileTree.Node)
deriving DecidableEq, Repr

namespace FileTree

/-- What is at a location, if anything is. -/
def find? (tree : FileTree) (location : Location) : Option Node :=
  tree.entries.lookup location

/-- Makes directories of a location and of everything above it, where there is nothing yet. -/
def makeDirectory (tree : FileTree) : Location → FileTree
  | [] => tree
  | name :: parent =>
    let tree := tree.makeDirectory parent
    match tree.find? (name :: parent) with
    | some _ => tree
    | none => ⟨(name :: parent, .directory) :: tree.entries⟩

/-- A tree with an empty working directory and the null device, which reads as an empty file. -/
def fresh : FileTree :=
  let devices : Location := [Utf8.encode "dev".toList]
  let null : Location := Utf8.encode "null".toList :: devices
  makeDirectory ⟨[([], .directory), (devices, .directory), (null, .file [])]⟩ .working

/-- Puts a file or a directory at a path. A directory that is there already is left alone. -/
def put (tree : FileTree) (path : Path) : Node → FileTree
  | .directory => tree.makeDirectory (.ofPath path)
  | .file data =>
    let location := Location.ofPath path
    ⟨(location, .file data) :: (tree.makeDirectory location.tail).entries⟩

/-- Puts several files and directories, in order. -/
def putAll (tree : FileTree) (nodes : List (Path × Node)) : FileTree :=
  nodes.foldl (fun tree (path, node) => tree.put path node) tree

/-- Walks some names from a location. -/
def walk (tree : FileTree) (location : Location) : List Name → Except Fault.SystemError Location
  | [] => .ok location
  | name :: rest =>
    match tree.find? location with
    | none => .error .noSuchFile
    | some (.file _) => .error .notADirectory
    | some .directory =>
      if Path.nameLimit < name.length then .error .nameTooLong
      else tree.walk (location.enter name) rest

/-- The bytes of the file at a path. -/
def read (tree : FileTree) (path : Path) : Except Fault (List UInt8) :=
  if 0 ∈ path then .error .nulInPath
  else if path = [] then .error (.system .noSuchFile)
  else if Path.lengthLimit ≤ path.length then .error (.system .nameTooLong)
  else
    match tree.walk (.start path) path.names with
    | .error error => .error (.system error)
    | .ok location =>
      match tree.find? location with
      | none => .error (.system .noSuchFile)
      | some .directory => .error (.system .isADirectory)
      | some (.file data) => .ok data

end FileTree

end TokenDump
