import WorkerGen.Host.Script

/-!
# Common scripts

What is done with files in more than one request: asking whether a file is there, reading a text,
making a directory with those it is in, removing a directory with all that is in it, and making a
directory with a name of its own.

* `makeDirs` — goes up a path to the first part of it that is there, and down again.
* `removeAll` — removes a link by its path, and all else as a directory: by opening it, emptying it,
  and then removing it by its path.
* `makeStaging` — tries new names until one is free, a bounded number of times.
-/

namespace WorkerGen.Script

/-- Whether there is a file of the given kind at a path, links followed. -/
def isKind (kind : FileKind) (p : Path) : Script Bool := do
  match ← request (.kind true p) with
  | .ok found => return found == kind
  | .error _ => return false

/-- Whether there is a file at a path. -/
def isFile : Path → Script Bool := isKind .file

/-- Whether there is a directory at a path. -/
def isDir : Path → Script Bool := isKind .dir

/-- Whether there is anything at a path, links followed. -/
def isThere (p : Path) : Script Bool := do
  match ← request (.kind true p) with
  | .ok _ => return true
  | .error _ => return false

/-- The text of a file. -/
def readText (p : Path) : Attempt String := do
  let content ← attempt (.read p)
  match String.fromUTF8? content with
  | some text => return text
  | none => throw .invalidData

/-! ## Making directories

A directory that is there already will do, and so will one that somebody else has made meanwhile. -/

/-- Fails unless there is a directory at a path where none can be made. -/
def needDir (p : Path) : Attempt Unit := do
  unless ← ExceptT.lift (isDir p) do throw .alreadyExists

/-- Makes the first of the given directories that can be made, each of which is in the next.  The
answer is those before it, which are still to be made. -/
def firstMade : List Path → Attempt (List Path)
  | [] => return []
  | p :: rest =>
    if p.text.isEmpty || p.parent?.isNone then return []
    else do
      match ← outcome (.makeDir p) with
      | .ok () => return []
      | .error .notFound => return p :: (← firstMade rest)
      | .error .alreadyExists => do
        needDir p
        return []
      | .error reason => throw reason

/-- Makes directories in order; one that is already there will do. -/
def makeEach : List Path → Attempt Unit
  | [] => return ()
  | p :: rest => do
    match ← outcome (.makeDir p) with
    | .ok () => makeEach rest
    | .error .alreadyExists => do
      needDir p
      makeEach rest
    | .error reason => throw reason

/-- Makes a directory and those it is in, as far as they are missing. -/
def makeDirs (p : Path) : Attempt Unit := do
  let missing ← firstMade p.ancestors
  makeEach missing.reverse

/-- Writes a file, and makes the directories it is in. -/
def writeFile (p : Path) (content : ByteArray) : Attempt Unit := do
  match p.parent? with
  | some dir => makeDirs dir
  | none => pure ()
  let (dir, name) ← attempt (.create p)
  attempt (.fill dir name content)

/-- Writes a text to a file, and makes the directories it is in. -/
def writeText (p : Path) (text : String) : Attempt Unit := writeFile p text.toUTF8

/-! ## Removing directories

Entries are removed from a directory that has been opened, so that a link that takes the place of a
directory meanwhile is not followed. -/

/-- Goes on where a step succeeds or finds nothing. -/
def tolerant (step : Attempt Unit) : Attempt Unit :=
  tryCatch step fun
    | .notFound => pure ()
    | reason => throw reason

/-- Removes an entry of an open directory, given how to empty a directory. -/
def removeEntry (empty : Location → Attempt Unit) (dir : Location) (name : String) :
    FileKind → Attempt Unit
  | .dir => do
    empty (dir ++ [name])
    attempt (.removeDirIn dir name)
  | _ => attempt (.removeFileIn dir name)

/-- Removes the given entries of an open directory, given how to empty a directory. -/
def removeEntries (empty : Location → Attempt Unit) (dir : Location) :
    List (String × FileKind) → Attempt Unit
  | [] => return ()
  | (name, kind) :: rest => do
    tolerant (removeEntry empty dir name kind)
    removeEntries empty dir rest

/-- Empties an open directory, with directories in it down to the given depth. -/
def emptyDir : (depth : Nat) → Location → Attempt Unit
  | 0, _ => throw .invalidFilename
  | depth + 1, dir => do
    let entries ← attempt (.entries dir)
    removeEntries (emptyDir depth) dir entries

/-- How deep the directories may be that are removed: no path is longer. -/
def depthLimit : Nat := 4096

/-- Removes a directory with all that is in it. -/
def removeTree (p : Path) : Attempt Unit := do
  let dir ← attempt (.openDir p)
  emptyDir depthLimit dir
  tolerant (attempt (.removeDir p))

/-- Removes a directory with all that is in it, or a link. -/
def removeAll (p : Path) : Attempt Unit := do
  match ← attempt (.kind false p) with
  | .link => attempt (.removeFile p)
  | _ => removeTree p

/-! ## Staging directories -/

/-- What the names of staging directories begin with. -/
def stagingStart : String := ".skyway-"

/-- How often a new name is tried. -/
def stagingAttempts : Nat := 65536

/-- Makes a directory with a new name in a directory, in at most `attempts` attempts. -/
def makeStagingIn (dir : Path) : (attempts : Nat) → Attempt Path
  | 0 => throw .alreadyExists
  | attempts + 1 => do
    let name ← attempt .randomName
    let p := dir.join ⟨stagingStart ++ name⟩
    match ← outcome (.makeDir p) with
    | .ok () => return p
    | .error .alreadyExists => makeStagingIn dir attempts
    | .error reason => throw reason

/-- Makes a directory with a new name in a directory.  The answer is its path from the root. -/
def makeStaging (dir : Path) : Attempt Path := do
  if dir.isAbsolute then makeStagingIn dir stagingAttempts
  else makeStagingIn ((← attempt .workDir).join dir) stagingAttempts

end WorkerGen.Script
