import WorkerGen.Dictionary
import WorkerGen.Files.Path

/-!
# File trees

A node is a file, a link or a directory; the entries of a directory stand in the order of their
names.  A *location* is the list of names that leads from the root to a node through directories
alone, without links.
-/

namespace WorkerGen

/-- A node of a file tree. -/
inductive FileTree where
  | file (content : ByteArray)
  | link (target : Path)
  | dir (entries : List (String × FileTree))

/-- What a node is. -/
inductive FileKind where
  | file
  | link
  | dir
deriving DecidableEq, Inhabited, Repr

/-- A place in a file tree. -/
abbrev Location := List String

/-- The path that leads to a location. -/
def Location.path (l : Location) : Path := ⟨"/" ++ "/".intercalate l⟩

namespace FileTree

instance : Inhabited FileTree := ⟨.dir []⟩

/-- What a node is. -/
def kind : FileTree → FileKind
  | .file _ => .file
  | .link _ => .link
  | .dir _ => .dir

/-- The entry of a directory. -/
def child? (name : String) : FileTree → Option FileTree
  | .dir entries => entries.lookup name
  | .file _ | .link _ => none

/-- The node at a location. -/
def at? : FileTree → Location → Option FileTree
  | node, [] => some node
  | node, name :: rest => (node.child? name).bind (at? · rest)

/-- Changes the entries of the directory at a location; elsewhere nothing changes. -/
def alterDir (change : List (String × FileTree) → List (String × FileTree)) :
    Location → FileTree → FileTree
  | [], .dir entries => .dir (change entries)
  | name :: rest, .dir entries =>
    match entries.lookup name with
    | none => .dir entries
    | some child => .dir (insertSorted name (alterDir change rest child) entries)
  | _, node => node

/-- Puts a node into the directory at a location, in place of what has that name. -/
def put (root : FileTree) (dir : Location) (name : String) (child : FileTree) : FileTree :=
  root.alterDir (insertSorted name child) dir

/-- Takes a name out of the directory at a location. -/
def erase (root : FileTree) (dir : Location) (name : String) : FileTree :=
  root.alterDir (·.filter fun entry => entry.1 != name) dir

end FileTree

end WorkerGen
