import WorkerGen.Build.Target
import WorkerGen.Host.Routine

/-!
# Writing a build

How the files of a worker come to stand in the output directory, in place of what is there.

A *staged* build is written to a directory with a new name beside the output directory and then
takes its place by renaming, so that the output directory holds either the earlier build or the new
one.  The earlier build is moved into the staging directory, put back if the new one cannot take its
place, and removed with the staging directory in the end.

A build *in place* removes the output directory first and is written into it.
-/

namespace WorkerGen

/-- How the output directory is replaced. -/
inductive WriteStrategy where
  | staged
  | inPlace
deriving DecidableEq, Inhabited, Repr

/-- A file or directory that cannot be written. -/
structure WriteError where
  path : Path
  reason : IoFault
deriving DecidableEq

/-- The wording of an error; the reason is not part of it. -/
def WriteError.message (e : WriteError) : String := "failed to write '" ++ e.path.text ++ "'"

namespace Build

/-- A step of writing a build. -/
abbrev Writing := ExceptT WriteError Script

/-- A step whose refusal is an error at a path. -/
def writing {α : Type} (path : Path) (step : Script.Attempt α) : Writing α :=
  ExceptT.mk do
    match ← step.run with
    | .ok a => return .ok a
    | .error reason => return .error ⟨path, reason⟩

/-- The directory of the handlers in an output directory. -/
def handlersIn (output : Path) : Path := output.join Target.handlersDir

/-- Removes an output directory if it is there, and makes it anew with an empty directory for
handlers. -/
def reset (output : Path) : Script.Attempt Unit := do
  Script.tolerant (Script.removeAll output)
  Script.makeDirs (handlersIn output)

/-- Writes files below a directory. -/
def writeFiles (output : Path) : List OutputFile → Writing Unit
  | [] => return ()
  | file :: rest => do
    let path := output.join file.path
    writing path (Script.writeText path file.content)
    writeFiles output rest

/-- Replaces an output directory by writing into it. -/
def writeInPlace (output : Path) (files : List OutputFile) : Writing Unit := do
  writing output (reset output)
  writeFiles output files

/-! ## Staged builds -/

/-- The directory that the staging directory of an output directory is made in. -/
def stagingParent (output : Path) : Path :=
  match output.parent? with
  | some parent => if parent.text.isEmpty then "." else parent
  | none => "."

/-- What is logged when the earlier build cannot be put back. -/
def notRestored (output : Path) (reason : IoFault) : LogEvent :=
  ⟨.error, "failed to restore previous build",
    [("output", output.text), ("error", reason.message)]⟩

/-- What is logged when a staged build has taken its place. -/
def swapped (output : Path) : LogEvent :=
  ⟨.debug, "swapped staged build into place", [("output", output.text)]⟩

/-- Renames a staged build to the output directory.  What is there is first moved out of the way,
and moved back if the build cannot take its place. -/
def swap (staged output previous : Path) : Writing Unit := do
  match ← ExceptT.lift (Script.request (.kind false output)) with
  | .error _ => writing output (Script.attempt (.rename staged output))
  | .ok _ =>
    writing output (Script.attempt (.rename output previous))
    match ← ExceptT.lift (Script.request (.rename staged output)) with
    | .ok () => return ()
    | .error reason => do
      match ← ExceptT.lift (Script.request (.rename previous output)) with
      | .ok () => pure ()
      | .error restore => ExceptT.lift (Script.log [notRestored output restore])
      throw ⟨output, reason⟩

/-- Writes a build to a staging directory and swaps it into place. -/
def stage (staging output : Path) (files : List OutputFile) : Writing Unit := do
  let staged := staging.join "out"
  writing staged (reset staged)
  writeFiles staged files
  swap staged output (staging.join "previous")
  ExceptT.lift (Script.log [swapped output])

/-- Replaces an output directory by a staged build.  The staging directory is removed in any case;
that this fails is an error only where nothing else has failed. -/
def writeStaged (output : Path) (files : List OutputFile) : Writing Unit := do
  let parent := stagingParent output
  writing parent (Script.makeDirs parent)
  let staging ← writing parent (Script.makeStaging parent)
  match ← ExceptT.lift (stage staging output files).run with
  | .ok () => writing parent (Script.removeAll staging)
  | .error e => do
    let _ ← ExceptT.lift (Script.removeAll staging).run
    throw e

/-- Replaces an output directory by files. -/
def write (strategy : WriteStrategy) (output : Path) (files : List OutputFile) : Writing Unit :=
  match strategy with
  | .staged => writeStaged output files
  | .inPlace => writeInPlace output files

end Build

end WorkerGen
