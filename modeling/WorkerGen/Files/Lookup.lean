import WorkerGen.Files.Fault
import WorkerGen.Files.Tree

/-!
# Finding paths in a tree

A path is followed from the root or from the working directory, name by name and through links, to
the directory that its last name is in.  What becomes of the last name depends on the request:
`place` leaves it alone, and `finalPlace` follows it while it is a link.

* `walk` — goes through the directories with the given names and stops at a link.
* `walkThrough` — goes on from the links, of which only so many may be on the way.
* `Path.check` — whether a path is looked for at all: not if it is empty or too long, or if it holds
  the character that ends texts of the system.
* `locate` and `find` — the node that a path leads to.
-/

namespace WorkerGen

/-- The last name of a path. -/
inductive LastName where
  /-- The path is the root. -/
  | root
  | current
  | parent
  | name (text : String)
deriving DecidableEq

/-- Where a path leads, up to its last name. -/
structure Place where
  /-- The directory in which the last name is looked up. -/
  dir : Location
  last : LastName
  /-- Whether the path ends with a slash, so that a directory is meant. -/
  slash : Bool
deriving DecidableEq

namespace Path

/-- How many bytes a path may have. -/
def byteLimit : Nat := 4095

/-- The names of a path. -/
def names (p : Path) : List String :=
  ((Text.pieces '/' p.text.toList).filter (!·.isEmpty)).map String.ofList

/-- Whether a path ends with a slash. -/
def endsWithSlash (p : Path) : Bool := p.text.toList.getLast? == some '/'

/-- Whether the system looks for a path at all. -/
def check (p : Path) : Except IoFault Unit :=
  if p.text.toList.contains '\x00' then .error .nulCharacter
  else if p.text.isEmpty then .error .notFound
  else if byteLimit < p.text.utf8ByteSize then .error .invalidFilename
  else .ok ()

end Path

namespace FileTree

/-- How many links may be followed on the way to a file. -/
def linkLimit : Nat := 40

/-- How many bytes a name may have. -/
def nameLimit : Nat := 255

/-- Whether a name is too long. -/
def isLong (name : String) : Bool := nameLimit < name.utf8ByteSize

/-- How far a walk through directories has come. -/
inductive Walk where
  | arrived (base : Location)
  /-- At a link, with the names that are left behind it. -/
  | atLink (base : Location) (target : Path) (rest : List String)
  | fault (reason : IoFault)

/-- Walks from a directory through the directories with the given names, up to a link. -/
def walk (root : FileTree) : Location → List String → Walk
  | base, [] => .arrived base
  | base, name :: rest =>
    if name = "." then walk root base rest
    else if name = ".." then walk root base.dropLast rest
    else if isLong name then .fault .invalidFilename
    else match root.at? (base ++ [name]) with
      | none => .fault .notFound
      | some (.file _) => .fault .notADirectory
      | some (.link target) => .atLink base target rest
      | some (.dir _) => walk root (base ++ [name]) rest

/-- Where a path starts: at the root or at the given directory. -/
def startOf (base : Location) (p : Path) : Location := if p.isAbsolute then [] else base

/-- Walks through directories and at most `links` links. -/
def walkThrough (root : FileTree) :
    (links : Nat) → Location → List String → Except IoFault Location
  | links, base, names =>
    match walk root base names with
    | .arrived base => .ok base
    | .fault reason => .error reason
    | .atLink base target rest =>
      match links with
      | 0 => .error .filesystemLoop
      | links + 1 => walkThrough root links (startOf base target) (target.names ++ rest)

/-- The last of the given names. -/
def lastName : Option String → LastName
  | none => .root
  | some "." => .current
  | some ".." => .parent
  | some name => .name name

/-- Where a path leads from a directory, up to its last name. -/
def place (root : FileTree) (base : Location) (p : Path) : Except IoFault Place := do
  p.check
  let all := p.names
  let base ← walkThrough root linkLimit (startOf base p) all.dropLast
  let last := lastName all.getLast?
  if let .name name := last then
    if isLong name then .error .invalidFilename
  return ⟨base, last, p.endsWithSlash⟩

/-- The location of a place. -/
def location (place : Place) : Location :=
  match place.last with
  | .root => []
  | .current => place.dir
  | .parent => place.dir.dropLast
  | .name name => place.dir ++ [name]

/-- The node at a place, if there is one. -/
def nodeAt? (root : FileTree) (place : Place) : Option FileTree := root.at? (location place)

/-- Where a path leads from a directory, after at most `links` links that its last name leads
through. -/
def finalPlace (root : FileTree) : (links : Nat) → Location → Path → Except IoFault Place
  | links, base, p => do
    let place ← root.place base p
    match root.nodeAt? place with
    | some (.link target) =>
      match links with
      | 0 => .error .filesystemLoop
      | links + 1 => do
        let next ← finalPlace root links place.dir target
        return { next with slash := next.slash || place.slash }
    | _ => return place

/-- The node that a path leads to and its location, with or without following a link at the end of
the path.  A link with a slash behind it is followed in any case. -/
def locate (root : FileTree) (follow : Bool) (base : Location) (p : Path) :
    Except IoFault (Location × FileTree) := do
  let place ←
    if follow || p.endsWithSlash then root.finalPlace linkLimit base p
    else root.place base p
  match root.nodeAt? place with
  | none => .error .notFound
  | some (.dir entries) => .ok (location place, .dir entries)
  | some node => if place.slash then .error .notADirectory else .ok (location place, node)

/-- The node that a path leads to. -/
def find (root : FileTree) (follow : Bool) (base : Location) (p : Path) :
    Except IoFault FileTree :=
  (root.locate follow base p).map (·.2)

end FileTree

end WorkerGen
