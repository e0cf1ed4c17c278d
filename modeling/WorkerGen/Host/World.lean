import WorkerGen.Files.Lookup
import WorkerGen.Host.Script

/-!
# Worlds

A world is a model of the system that scripts run on: a file tree, a working directory, the log, and
the child processes with the way in which each of them ends.  Which programs there are is a part of
the world too, as a rule that says along which search paths a program is found; what is proved of
all worlds holds however programs are found and however they end.

* `World.answer` — the answer to a request, and the world after it.  A refused request changes
  nothing.
* `Script.run` — a script on a world.
* `Script.runRefusing` — the same where some requests are refused whatever they ask.
* `Script.worlds` — the worlds that a run goes through, in any of which it may be interrupted.
-/

namespace WorkerGen

/-- A child process that has been started. -/
structure Child where
  program : String
  arguments : List String
  /-- The variables added to its environment. -/
  env : Dictionary String
deriving DecidableEq

/-- The texts that a child process is given. -/
def Child.texts (c : Child) : List String :=
  c.arguments ++ c.env.entries.flatMap fun (name, value) => [name, value]

/-- A model of the system. -/
structure World where
  files : FileTree
  workDir : Location
  /-- What names that are hard to guess are made from, in turn. -/
  randomNames : List String
  /-- The log, newest event first. -/
  log : List LogEvent
  /-- What has been displayed, newest item first. -/
  displayed : List DisplayItem
  /-- The child processes that have been started, newest first. -/
  children : List Child
  /-- How the next child processes end; all others succeed. -/
  exits : List ExitStatus
  /-- Whether a program is found along a search path, which is that of the running program where
  none is given. -/
  finds : (searchPath : Option String) → (program : String) → Bool

namespace World

/-- The directory with the programs of a new world.  It has every program that is asked for. -/
def programDir : List Char := "/usr/bin".toList

/-- Whether a program is found in a new world: along a search path that names the directory with the
programs, as that of the running program does. -/
def findsNew (searchPath : Option String) (_program : String) : Bool :=
  searchPath.all fun dirs => (Text.pieces ':' dirs.toList).contains programDir

/-- A world in which nothing has happened. -/
def new (files : FileTree) (workDir : Location) : World :=
  ⟨files, workDir, [], [], [], [], [], findsNew⟩

/-- Where a path leads, up to its last name. -/
def place (w : World) (p : Path) : Except IoFault Place := w.files.place w.workDir p

/-! ## Changes to the tree

Each of these follows its paths in the tree as it is and changes one directory, or two for a
rename. -/

/-- Puts a node into a directory. -/
def put (w : World) (dir : Location) (name : String) (node : FileTree) : World :=
  { w with files := w.files.put dir name node }

/-- Takes a name out of a directory. -/
def erase (w : World) (dir : Location) (name : String) : World :=
  { w with files := w.files.erase dir name }

/-- Opens a file to write to it.  A path that ends with a slash, like one to a directory, names no
file. -/
def create (w : World) (p : Path) : Except IoFault ((Location × String) × World) := do
  if (← w.place p).slash then .error .isADirectory
  else
    let place ← w.files.finalPlace FileTree.linkLimit w.workDir p
    match place.last, w.files.nodeAt? place with
    | .name name, none | .name name, some (.file _) =>
      if place.slash then .error .isADirectory
      else return ((place.dir, name), w.put place.dir name (.file .empty))
    | _, _ => .error .isADirectory

/-- Writes to a file that has been opened. -/
def fill (w : World) (dir : Location) (name : String) (content : ByteArray) :
    Except IoFault World :=
  match w.files.at? (dir ++ [name]) with
  | some (.file _) => .ok (w.put dir name (.file content))
  | _ => .error .notFound

/-- Makes a directory. -/
def makeDir (w : World) (p : Path) : Except IoFault World := do
  let place ← w.place p
  match place.last, w.files.nodeAt? place with
  | .name name, none => return w.put place.dir name (.dir [])
  | _, _ => .error .alreadyExists

/-- Removes an empty directory. -/
def removeDir (w : World) (p : Path) : Except IoFault World := do
  let place ← w.place p
  match place.last, w.files.nodeAt? place with
  | .root, _ => .error .resourceBusy
  | .current, _ => .error .invalidInput
  | .parent, _ => .error .directoryNotEmpty
  | .name name, some (.dir []) => return w.erase place.dir name
  | .name _, some (.dir _) => .error .directoryNotEmpty
  | .name _, some _ => .error .notADirectory
  | .name _, none => .error .notFound

/-- Removes a file or a link. -/
def removeFile (w : World) (p : Path) : Except IoFault World := do
  let place ← w.place p
  match place.last, w.files.nodeAt? place with
  | .name _, none => .error .notFound
  | .name _, some (.dir _) => .error .isADirectory
  | .name name, some _ =>
    if place.slash then .error .notADirectory
    else return w.erase place.dir name
  | _, _ => .error .isADirectory

/-- Removes an empty directory from a directory that has been opened. -/
def removeDirIn (w : World) (dir : Location) (name : String) : Except IoFault World :=
  match w.files.at? (dir ++ [name]) with
  | none => .error .notFound
  | some (.dir []) => .ok (w.erase dir name)
  | some (.dir _) => .error .directoryNotEmpty
  | some _ => .error .notADirectory

/-- Removes a file or a link from a directory that has been opened. -/
def removeFileIn (w : World) (dir : Location) (name : String) : Except IoFault World :=
  match w.files.at? (dir ++ [name]) with
  | none => .error .notFound
  | some (.dir _) => .error .isADirectory
  | some _ => .ok (w.erase dir name)

/-- Makes a link. -/
def makeLink (w : World) (p target : Path) : Except IoFault World := do
  let place ← w.place p
  match place.last, w.files.nodeAt? place with
  | .name name, none =>
    if place.slash || target.text.isEmpty then .error .notFound
    else return w.put place.dir name (.link target)
  | _, _ => .error .alreadyExists

/-- Whether a node may be renamed to a place that holds another. -/
def mayReplace : FileTree → Option FileTree → Except IoFault Unit
  | _, none => .ok ()
  | .dir _, some (.dir []) => .ok ()
  | .dir _, some (.dir _) => .error .directoryNotEmpty
  | .dir _, some _ => .error .notADirectory
  | _, some (.dir _) => .error .isADirectory
  | _, some _ => .ok ()

/-- Moves a node to another name.  A directory may only take the place of an empty directory, and
nothing may be moved into itself. -/
def rename (w : World) (source target : Path) : Except IoFault World := do
  source.check
  target.check
  let old ← w.place source
  let new ← w.place target
  match old.last, new.last with
  | .name oldName, .name newName =>
    match w.files.nodeAt? old with
    | none => .error .notFound
    | some node =>
      let oldPlace := old.dir ++ [oldName]
      let newPlace := new.dir ++ [newName]
      if node.kind != .dir && (old.slash || new.slash) then .error .notADirectory
      else if oldPlace.isPrefixOf new.dir then .error .invalidInput
      else if newPlace.isPrefixOf old.dir then .error .directoryNotEmpty
      else if oldPlace = newPlace then return w
      else do
        mayReplace node (w.files.nodeAt? new)
        return (w.erase old.dir oldName).put new.dir newName node
  | _, _ => .error .resourceBusy

/-! ## Answers -/

/-- The kind of what stands at a path. -/
def kind (w : World) (follow : Bool) (p : Path) : Except IoFault FileKind :=
  (w.files.find follow w.workDir p).map FileTree.kind

/-- The location of a directory. -/
def openDir (w : World) (p : Path) : Except IoFault Location := do
  match ← w.files.locate false w.workDir p with
  | (location, .dir _) => return location
  | _ => .error .notADirectory

/-- The entries of a directory that has been opened. -/
def entries (w : World) (dir : Location) : Except IoFault (List (String × FileKind)) :=
  match w.files.at? dir with
  | some (.dir entries) => .ok (entries.map fun (name, node) => (name, node.kind))
  | some _ => .error .notADirectory
  | none => .error .notFound

/-- The content of a file. -/
def read (w : World) (p : Path) : Except IoFault ByteArray := do
  match ← w.files.find true w.workDir p with
  | .file content => return content
  | _ => .error .isADirectory

/-- How a child process ends before which others have been started, given their number. -/
def exit (w : World) (started : Nat) : ExitStatus := w.exits[started]?.getD (.code 0)

/-- The world after the start of a child process. -/
def launched (w : World) (child : Child) : World :=
  { w with exits := w.exits.tail, children := child :: w.children }

/-- Starts a child process.  Its program is looked for along the search path among the variables
that are added to its environment, or else along that of the running program. -/
def start (w : World) (child : Child) : Except IoFault (ExitStatus × World) :=
  if child.texts.any (·.toList.contains '\x00') then .error .nulCharacter
  else if w.finds (child.env.get? "PATH") child.program then .ok (w.exit 0, w.launched child)
  else .error .notFound

/-- The world after a change, or as it was where the change is refused. -/
def changed (w : World) : Except IoFault World → Except IoFault Unit × World
  | .ok w => (.ok (), w)
  | .error reason => (.error reason, w)

/-- The answer to a request, and the world after it. -/
def answer (w : World) : (r : Request) → Except IoFault r.Answer × World
  | .kind follow p => (w.kind follow p, w)
  | .openDir p => (w.openDir p, w)
  | .entries dir => (w.entries dir, w)
  | .read p => (w.read p, w)
  | .create p =>
    match w.create p with
    | .ok (opened, w) => (.ok opened, w)
    | .error reason => (.error reason, w)
  | .fill dir name content => w.changed (w.fill dir name content)
  | .makeDir p => w.changed (w.makeDir p)
  | .removeDir p => w.changed (w.removeDir p)
  | .removeFile p => w.changed (w.removeFile p)
  | .removeDirIn dir name => w.changed (w.removeDirIn dir name)
  | .removeFileIn dir name => w.changed (w.removeFileIn dir name)
  | .makeLink p target => w.changed (w.makeLink p target)
  | .rename source target => w.changed (w.rename source target)
  | .workDir => (.ok w.workDir.path, w)
  | .randomName =>
    (.ok (w.randomNames.head?.getD ""), { w with randomNames := w.randomNames.tail })
  | .log event => (.ok (), { w with log := event :: w.log })
  | .display item => (.ok (), { w with displayed := item :: w.displayed })
  | .start program arguments env =>
    match w.start ⟨program, arguments, env⟩ with
    | .ok (status, w) => (.ok status, w)
    | .error reason => (.error reason, w)

end World

namespace Script

/-- Runs a script on a world. -/
def run {α : Type} : Script α → World → α × World
  | .done a, w => (a, w)
  | .ask request next, w =>
    let (reply, w) := w.answer request
    run (next reply) w

/-- Runs a script where requests may be refused, which then have no effect.  Requests are counted
from `index`. -/
def runRefusing {α : Type} (refuses : Nat → Option IoFault) : (index : Nat) → Script α → World →
    α × World
  | _, .done a, w => (a, w)
  | index, .ask request next, w =>
    match refuses index with
    | some reason => runRefusing refuses (index + 1) (next (.error reason)) w
    | none =>
      let (reply, w) := w.answer request
      runRefusing refuses (index + 1) (next reply) w

/-- The worlds that a run of a script goes through, from the one it starts in to its last. -/
def worlds {α : Type} : Script α → World → List World
  | .done _, w => [w]
  | .ask request next, w =>
    let (reply, after) := w.answer request
    w :: worlds (next reply) after

end Script

end WorkerGen
