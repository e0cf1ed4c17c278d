import WorkerGen.Api.Reading
import WorkerGen.Bindings.Reading
import WorkerGen.Compile.State
import WorkerGen.Env
import WorkerGen.Host.Routine

/-!
# Loading a project

A project is an API description, a bindings manifest and an environment file below a directory.
Only the description has to be there.  Without a manifest there are no bindings and a warning; an
environment file that is malformed is left out with a warning.

* `load` — the script.  That there is a description is seen to first, and then the manifest, the
  description and the environment file are read, in this order.
* `Loaded` — what it answers: the inputs of a compilation, and what was amiss.  The variables of the
  environment file come before those of the command.
* `LoadError` and `LoadWarning` — what ends loading and what does not, with their wording.
-/

namespace WorkerGen

/-! ## What is amiss

Errors end loading, and warnings go into the compilation as diagnostics. -/

/-- A file of a project that cannot be loaded. -/
inductive LoadError where
  | noApi (path : Path)
  | unreadable (path : Path) (reason : IoFault)
  | manifest (error : ManifestError)
  | api (error : ApiError)
deriving DecidableEq

/-- The wording of an error; the cause in the document is not part of it. -/
def LoadError.message : LoadError → String
  | .noApi path => "API description not found at '" ++ path.text ++ "'"
  | .unreadable path _ => "failed to read '" ++ path.text ++ "'"
  | .manifest _ => "failed to parse bindings manifest"
  | .api _ => "failed to parse API description"

/-- What is amiss with a project that can be loaded. -/
inductive LoadWarning where
  | noManifest (path : Path)
  | badEnv (path : Path) (error : EnvError)
deriving DecidableEq

namespace LoadWarning

/-- The wording of a warning. -/
def message : LoadWarning → String
  | .noManifest path => path.text ++ " not found; bindings will be unavailable"
  | .badEnv path e => "ignoring " ++ path.text ++ ": " ++ e.message

/-- The file that a warning is about, with the line in it. -/
def location : LoadWarning → String
  | .noManifest path => path.text
  | .badEnv path e => path.text ++ ":" ++ toString e.line

/-- A warning as a diagnostic. -/
def diagnostic (w : LoadWarning) : Diagnostic := ⟨.warning, "load", w.message, some w.location⟩

end LoadWarning

/-- A project that has been loaded. -/
structure Loaded where
  config : Config
  warnings : List LoadWarning
  /-- The path of the API description. -/
  apiPath : Path
deriving DecidableEq

/-- Where a project is and what its files are called. -/
structure Project where
  /-- The directory that all paths are seen from. -/
  root : Path
  api : Path
  manifest : Path
  envFile : Path
  /-- The environment that the environment file is added to. -/
  ambient : Dictionary String

namespace Project

/-- The usual name of an API description. -/
def defaultApi : Path := "api.yaml"

/-- The usual name of a bindings manifest. -/
def defaultManifest : Path := "wrangler.toml"

/-- The usual name of an environment file. -/
def defaultEnvFile : Path := ".env"

/-! ## Loading

Each file has a step of its own, which asks whether it is there before it reads it. -/

/-- A step of loading. -/
abbrev Loading := ExceptT LoadError Script

/-- What is logged before a file is read. -/
def readingEvent (what : String) (path : Path) : LogEvent :=
  ⟨.debug, "reading " ++ what, [("path", path.text)]⟩

/-- The text of a file of the project. -/
def readFile (path : Path) : Loading String :=
  ExceptT.mk do
    match ← (Script.readText path).run with
    | .ok text => return .ok text
    | .error reason => return .error (.unreadable path reason)

/-- Loads the manifest, if there is one. -/
def loadManifest (path : Path) : Loading (Manifest × List LoadWarning) := do
  if ← ExceptT.lift (Script.isFile path) then
    ExceptT.lift (Script.log [readingEvent "bindings manifest" path])
    match Manifest.parse (← readFile path) with
    | .ok manifest => return (manifest, [])
    | .error e => throw (.manifest e)
  else
    let warning := LoadWarning.noManifest path
    ExceptT.lift (Script.log [⟨.warn, warning.message, []⟩])
    return (.empty, [warning])

/-- Loads the API description. -/
def loadApi (path : Path) : Loading Api := do
  ExceptT.lift (Script.log [readingEvent "API description" path])
  match Api.parse (← readFile path) with
  | .ok api => return api
  | .error e => throw (.api e)

/-- Reads an environment file, if there is one. -/
def readEnv (path : Path) : Script (Except EnvError (Option EnvFile)) := do
  if ← Script.isThere path then
    match ← (Script.readText path).run with
    | .ok text => return (EnvFile.parse text).map some
    | .error reason => return .error ⟨0, .unreadable reason.message⟩
  else return .ok none

/-- Loads the environment file.  If it is malformed it sets nothing. -/
def loadEnv (path : Path) : Script (Dictionary String × List LoadWarning) := do
  match ← readEnv path with
  | .ok none => return (.empty, [])
  | .ok (some file) => do
    Script.log [⟨.debug, "applying env overrides",
      [("path", path.text), ("vars", toString file.size)]⟩]
    return (file.toDictionary, [])
  | .error e => do
    let warning := LoadWarning.badEnv path e
    Script.log [⟨.warn, warning.message, []⟩]
    return (.empty, [warning])

/-- Loads a project.  That there is an API description is seen to before anything is read. -/
def load (p : Project) : Loading Loaded := do
  let apiPath := p.root.join p.api
  if ← ExceptT.lift (Script.isFile apiPath) then
    let (bindings, manifestWarnings) ← loadManifest (p.root.join p.manifest)
    let api ← loadApi apiPath
    let (overrides, envWarnings) ← ExceptT.lift (loadEnv (p.root.join p.envFile))
    return ⟨⟨bindings, api, p.ambient.union overrides⟩, manifestWarnings ++ envWarnings, apiPath⟩
  else throw (.noApi apiPath)

end Project

namespace LoadWarning

/-- Whether a warning says that there is no manifest. -/
def isNoManifest : LoadWarning → Bool
  | .noManifest _ => true
  | .badEnv .. => false

end LoadWarning

/-- The start of the compilation of a project, with the warnings of its loading. -/
def Compilation.ofLoaded (l : Loaded) : Compilation :=
  ((Compilation.new l.config).declare (!l.warnings.any LoadWarning.isNoManifest)).report
    (l.warnings.map LoadWarning.diagnostic)

end WorkerGen
