import WorkerGen.Files.Fault
import WorkerGen.Files.Tree
import WorkerGen.Host.Display
import WorkerGen.Log

/-!
# Scripts

A script is what a command does to the system around it: a sequence of requests, each of which may
depend on the answers to the earlier ones.  A script is a value, so it can be run on the real system
as well as on a `World`, with requests that are refused, or only up to some point.

What has been opened is known by its location, not by the path that has led there.
-/

namespace WorkerGen

/-- How a child process ends. -/
inductive ExitStatus where
  | code (value : Nat)
  /-- Ended by the signal that cannot be caught. -/
  | killed
deriving DecidableEq, Inhabited

/-- The words for the end of a child process. -/
def ExitStatus.text : ExitStatus → String
  | .code n => "exit status: " ++ toString n
  | .killed => "signal: 9 (SIGKILL)"

/-! ## Requests

A request says what it asks for, and its answer has the type that goes with that. -/

/-- Something that a script asks of the system. -/
inductive Request where
  /-- What stands at a path, with or without following a link at its end. -/
  | kind (follow : Bool) (path : Path)
  /-- Opens a directory, which is not reached through a link at the end of the path. -/
  | openDir (path : Path)
  /-- The entries of a directory that has been opened. -/
  | entries (dir : Location)
  /-- The content of a file. -/
  | read (path : Path)
  /-- Opens a file to write to it.  It is made if it is not there, and loses what it held. -/
  | create (path : Path)
  /-- Writes to a file that has been opened. -/
  | fill (dir : Location) (name : String) (content : ByteArray)
  | makeDir (path : Path)
  /-- Removes an empty directory. -/
  | removeDir (path : Path)
  /-- Removes a file or a link. -/
  | removeFile (path : Path)
  /-- Removes an empty directory from a directory that has been opened. -/
  | removeDirIn (dir : Location) (name : String)
  /-- Removes a file or a link from a directory that has been opened. -/
  | removeFileIn (dir : Location) (name : String)
  | makeLink (path target : Path)
  | rename (source target : Path)
  /-- The path of the working directory. -/
  | workDir
  /-- A name that is hard to guess. -/
  | randomName
  /-- Adds to the log. -/
  | log (event : LogEvent)
  /-- Displays an item of a report. -/
  | display (item : DisplayItem)
  /-- Runs a program with additional variables, and waits for its end. -/
  | start (program : String) (arguments : List String) (env : Dictionary String)

/-- What a request is answered with, unless it is refused. -/
@[reducible] def Request.Answer : Request → Type
  | .kind .. => FileKind
  | .openDir _ => Location
  | .entries _ => List (String × FileKind)
  | .read _ => ByteArray
  | .create _ => Location × String
  | .fill .. | .makeDir _ | .removeDir _ | .removeFile _ | .removeDirIn .. | .removeFileIn ..
  | .makeLink .. | .rename .. => Unit
  | .workDir => Path
  | .randomName => String
  | .log _ | .display _ => Unit
  | .start .. => ExitStatus

/-- What a command does to the system, up to a result. -/
inductive Script (α : Type) where
  | done (result : α)
  | ask (request : Request) (next : Except IoFault request.Answer → Script α)

namespace Script

/-- A script followed by another, which may depend on the result of the first. -/
def bind {α β : Type} : Script α → (α → Script β) → Script β
  | .done a, f => f a
  | .ask request next, f => .ask request fun answer => bind (next answer) f

instance : Monad Script where
  pure := Script.done
  bind := Script.bind

/-- A script of one request. -/
def request (r : Request) : Script (Except IoFault r.Answer) := .ask r .done

/-! ## Steps that may be refused

A script decides for each request what a refusal means: that it fails, or that it goes on. -/

/-- A step that may be refused. -/
abbrev Attempt := ExceptT IoFault Script

/-- A script of one request, which fails where that is refused. -/
def attempt (r : Request) : Attempt r.Answer := ExceptT.mk (request r)

/-- A script of one request, which goes on where that is refused. -/
def outcome (r : Request) : Attempt (Except IoFault r.Answer) := ExceptT.lift (request r)

/-- Adds events to the log. -/
def log : List LogEvent → Script Unit
  | [] => .done ()
  | event :: rest => do
    let _ ← request (.log event)
    log rest

/-- Displays the items of a report. -/
def display : List DisplayItem → Script Unit
  | [] => .done ()
  | item :: rest => do
    let _ ← request (.display item)
    display rest

/-! ## Running on the system -/

/-- Runs a script with a monad that answers requests. -/
def exec {m : Type → Type} [Monad m] (answer : (r : Request) → m (Except IoFault r.Answer))
    {α : Type} : Script α → m α
  | .done a => pure a
  | .ask request next => do
    let reply ← answer request
    exec answer (next reply)

end Script

end WorkerGen
