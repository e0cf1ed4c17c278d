import WorkerGen.CommandLine.Run
import WorkerGen.Host.World

/-!
# The program

Runs the command line on the system.  What a command does is decided by `CommandLine.runLine`; here
its requests are passed on, one by one, and what the system refuses is given a reason.

How child processes are started depends on the platform more than all else, so that it is a
parameter: `Program.run` is the program, given an action that starts a child process, waits for it,
and tells how it has ended.  The environment of a command is that of the process itself, which the
system shows as a text with a zero character behind each variable (`Program.environmentOf`).
-/

namespace WorkerGen

/-! ## What the system refuses

The reason is told from the number of an error, where it has one, and else from its kind. -/

/-- The number of an error, if it has one.  Some of the system's libraries give it below zero. -/
def systemNumber? : IO.Error → Option UInt32
  | .alreadyExists _ n _ | .noFileOrDirectory _ n _ | .invalidArgument _ n _
  | .permissionDenied _ n _ | .resourceExhausted _ n _ | .inappropriateType _ n _
  | .noSuchThing _ n _ | .interrupted _ n _ => some n
  | .otherError n _ | .resourceBusy n _ | .resourceVanished n _ | .unsupportedOperation n _
  | .hardwareFault n _ | .unsatisfiedConstraints n _ | .illegalOperation n _ | .protocolError n _
  | .timeExpired n _ => some n
  | .unexpectedEof | .userError _ => none

/-- Why the system has refused something.  Reasons that no command tells from others count as an
invalid argument. -/
def IoFault.ofError (e : IO.Error) : IoFault :=
  match (systemNumber? e).map fun n => min n (0 - n) with
  | some 2 => .notFound
  | some 13 => .permissionDenied
  | some 16 => .resourceBusy
  | some 17 => .alreadyExists
  | some 20 => .notADirectory
  | some 21 => .isADirectory
  | some 36 => .invalidFilename
  | some 39 => .directoryNotEmpty
  | some 40 => .filesystemLoop
  | _ => .invalidInput

namespace Program

/-- An action with the reason for which it is refused. -/
def refusable {α : Type} (action : IO α) : IO (Except IoFault α) := do
  try return .ok (← action)
  catch e => return .error (IoFault.ofError e)

/-- An action on a path, which may not be empty. -/
def on {α : Type} (p : Path) (action : IO α) : IO (Except IoFault α) :=
  if p.text.isEmpty then return .error .notFound else refusable action

/-! ## Files

Paths are seen from the working directory, and what has been opened is known by its location. -/

/-- A path as an entry of the working directory. -/
def entry (p : Path) : IO.FS.DirEntry := ⟨".", p.text⟩

/-- What an entry of a directory is.  What is neither a file nor a directory is taken for a link. -/
def kindOf (data : IO.FS.Metadata) : FileKind :=
  match data.type with
  | .file => .file
  | .dir => .dir
  | .symlink | .other => .link

/-- The location that a path leads to. -/
def locate (p : Path) : IO Location := do
  let found ← IO.FS.realPath (entry p).path
  return (Path.mk found.toString).names

/-- The location of the directory of a file, and the name that the file has there. -/
def locateFile (p : Path) : IO (Location × String) := do
  let location ← locate p
  return (location.dropLast, location.getLast?.getD "")

/-- The entries of a directory, without those that have gone in the meantime. -/
def entries (dir : Location) : IO (List (String × FileKind)) := do
  let found ← (entry dir.path).path.readDir
  return (← found.toList.mapM fun e => do
    match ← (refusable e.path.symlinkMetadata) with
    | .ok data => return [(e.fileName, kindOf data)]
    | .error _ => return []).flatten

/-- The characters of names that are hard to guess. -/
def nameCharacters : List Char := "abcdefghijklmnopqrstuvwxyz0123456789".toList

/-- A name of the given length that is hard to guess. -/
def randomName : (length : Nat) → IO String
  | 0 => return ""
  | length + 1 => do
    let index ← IO.rand 0 (nameCharacters.length - 1)
    return String.ofList (nameCharacters[index]?.toList) ++ (← randomName length)

/-- Logs an event, if it is more than a detail. -/
def log (event : LogEvent) : IO Unit :=
  match event.level with
  | .warn | .error => IO.eprintln (event.level.name ++ " " ++ event.message)
  | .info | .debug => return ()

/-- Displays an item of a report. -/
def display (item : DisplayItem) : IO Unit :=
  if item.isComplaint then IO.eprint item.text else IO.print item.text

/-! ## The environment

Only texts can be passed on to a child process, so an environment that is no text ends the
program. -/

/-- The name and the value in a text such as `NAME=value`.  A sign that begins the text is part of
the name. -/
def assignment? : List Char → Option (String × String)
  | [] => none
  | first :: rest =>
    match rest.span (· != '=') with
    | (name, _ :: value) => some (String.ofList (first :: name), String.ofList value)
    | (_, []) => none

/-- The variables in a text with a zero character behind each of them. -/
def environmentOf (text : String) : Dictionary String :=
  .ofList ((Text.pieces '\x00' text.toList).filterMap assignment?)

/-- The environment of this process. -/
def environment : IO (Dictionary String) := do
  let content ← IO.FS.readBinFile (entry "/proc/self/environ").path
  match String.fromUTF8? content with
  | some text => return environmentOf text
  | none => throw (IO.userError "the environment is not valid UTF-8")

/-! ## Running

One action for each kind of request, and the program that is made of them. -/

/-- Answers a request.  Child processes are started by the given action. -/
def answer (start : Child → IO ExitStatus) : (r : Request) → IO (Except IoFault r.Answer)
  | .kind true p => on p (kindOf <$> (entry p).path.metadata)
  | .kind false p => on p (kindOf <$> (entry p).path.symlinkMetadata)
  | .openDir p => do
    match ← on p (kindOf <$> (entry p).path.symlinkMetadata) with
    | .ok .dir => refusable (locate p)
    | .ok _ => return .error .notADirectory
    | .error reason => return .error reason
  | .entries dir => refusable (entries dir)
  | .read p => on p (IO.FS.readBinFile (entry p).path)
  | .create p => on p do
    IO.FS.writeBinFile (entry p).path .empty
    locateFile p
  | .fill dir name content =>
    refusable (IO.FS.writeBinFile (entry (Location.path (dir ++ [name]))).path content)
  | .makeDir p => on p (IO.FS.createDir (entry p).path)
  | .removeDir p => on p (IO.FS.removeDir (entry p).path)
  | .removeFile p => on p (IO.FS.removeFile (entry p).path)
  | .removeDirIn dir name =>
    refusable (IO.FS.removeDir (entry (Location.path (dir ++ [name]))).path)
  | .removeFileIn dir name =>
    refusable (IO.FS.removeFile (entry (Location.path (dir ++ [name]))).path)
  | .makeLink _ _ => return .error .permissionDenied
  | .rename source target =>
    if target.text.isEmpty then return .error .notFound
    else on source (IO.FS.rename (entry source).path (entry target).path)
  | .workDir => refusable do return ⟨(← IO.currentDir).toString⟩
  | .randomName => refusable (randomName 6)
  | .log event => refusable (log event)
  | .display item => refusable (display item)
  | .start program arguments env => refusable (start ⟨program, arguments, env⟩)

/-- Runs the command line that the program is started with, in the environment of this process. -/
def run (start : Child → IO ExitStatus) (arguments : List String) : IO UInt32 := do
  let ambient ← environment
  let status ← (CommandLine.runLine ambient arguments).exec (answer start)
  return status.toUInt32

end Program

end WorkerGen
