import WorkerGen.Bindings.Manifest
import WorkerGen.Config
import WorkerGen.Host.Script

/-!
# Launching a worker

A worker that has been built is run on this machine or deployed, by the command-line tool of the
platform.  If a script is given, it is first executed against the primary database; where that
fails, the worker is not launched.

The tool is run by another program, which finds it among the installed packages.  Its environment is
that of the project.  That it cannot be started is an error of its own, apart from that it ends with
another status than zero.
-/

namespace WorkerGen

/-- Where a worker is launched. -/
inductive LaunchSite where
  | here
  | remote
deriving DecidableEq, Inhabited, Repr

/-- The option that names a site. -/
def LaunchSite.flag : LaunchSite → String
  | .here => "--local"
  | .remote => "--remote"

/-- How a worker is launched. -/
structure LaunchOptions where
  /-- The directory that holds the worker. -/
  output : Path
  /-- A script to execute against the primary database. -/
  init : Option Path
  site : LaunchSite
deriving DecidableEq

/-- Why a worker is not launched. -/
inductive LaunchError where
  /-- There is a script and no database. -/
  | noDatabase
  /-- A command that cannot be started. -/
  | notStarted (line : String)
  /-- A command that has failed. -/
  | failed (line : String) (status : ExitStatus)
  /-- A script that cannot be executed. -/
  | notApplied (script : Path) (error : LaunchError)
deriving DecidableEq

/-- The texts of an error, the most general first. -/
def LaunchError.chain : LaunchError → List String
  | .noDatabase => ["--init needs a D1 database declared in wrangler.toml"]
  | .notStarted line => ["Failed to run \x60" ++ line ++ "\x60"]
  | .failed line status => ["\x60" ++ line ++ "\x60 exited with " ++ status.text]
  | .notApplied script e => ("Failed to apply " ++ script.text) :: e.chain

namespace Launch

/-- The program that runs the tool. -/
def runner : String := "npx"

/-- The name of the tool. -/
def tool : String := "wrangler"

/-- A step of launching. -/
abbrev Launching := ExceptT LaunchError Script

/-- The arguments that execute a script against a database. -/
def executeArguments (database : String) (script : Path) (site : LaunchSite) : List String :=
  ["d1", "execute", database, site.flag, "--file", script.text]

/-- The arguments that launch a worker. -/
def launchArguments (entry : Path) : LaunchSite → List String
  | .here => ["dev", entry.text]
  | .remote => ["deploy", entry.text]

/-- Runs the tool. -/
def runTool (env : Dictionary String) (arguments : List String) : Launching Unit := do
  let arguments := tool :: arguments
  let line := " ".intercalate (runner :: arguments)
  ExceptT.lift (Script.log [⟨.debug, "running wrangler", [("command", line)]⟩])
  match ← ExceptT.lift (Script.request (.start runner arguments env)) with
  | .error _ => throw (.notStarted line)
  | .ok (.code 0) => return ()
  | .ok status => throw (.failed line status)

/-- Executes a script, if there is one, against the primary database. -/
def executeScript (config : Config) (site : LaunchSite) : Option Path → Launching Unit
  | none => return ()
  | some script =>
    match config.bindings.primaryDatabase? with
    | none => throw .noDatabase
    | some database =>
      tryCatch (runTool config.env (executeArguments database.targetName script site))
        fun e => throw (.notApplied script e)

/-- Launches a worker. -/
def launch (config : Config) (options : LaunchOptions) : Launching Unit := do
  executeScript config options.site options.init
  runTool config.env (launchArguments (options.output.join "index.js") options.site)

end Launch

end WorkerGen
