import WorkerGen.CommandLine.Arguments
import WorkerGen.Project.Build

/-!
# Running commands

A command works on the project in the working directory.  It displays what has come of it, and ends
with a status: 0 if all went well, 2 if the command line asks for nothing, and 1 otherwise.

`runLine` is the whole program as a script: it reads the command line, finds the project, loads it
and runs the command.  An error is displayed by its texts, the most general first.
-/

namespace WorkerGen.CommandLine

/-- The name and version of the program. -/
def versionText : String := "skyway 0.1.0"

/-- What the program says about how it is used. -/
def usageText : String := "Usage: skyway <local|deploy|build|check|completions> [OPTIONS]"

/-- The status of a command line that asks for nothing. -/
def usageStatus : Nat := 2

/-- The status of a command that has failed. -/
def failureStatus : Nat := 1

/-- The name of an API description where there is none of the usual name. -/
def fallbackApi : Path := "openapi.yaml"

/-- The API description that is meant where none is named. -/
def usualApi (root : Path) : Script Path := do
  if ← Script.isFile (root.join Project.defaultApi) then return Project.defaultApi
  else if ← Script.isFile (root.join fallbackApi) then return fallbackApi
  else return Project.defaultApi

/-- The project in a directory. -/
def projectIn (root api : Path) (ambient : Dictionary String) : Project :=
  ⟨root, api, Project.defaultManifest, Project.defaultEnvFile, ambient⟩

/-- Displays an error, of which the most general text comes first, and fails. -/
def fail (chain : List String) : Script Nat := do
  Script.display [.error (": ".intercalate chain)]
  return failureStatus

/-- Checks a project and displays the report. -/
def runCheck (loaded : Loaded) : Script Nat := do
  match ← (Project.check loaded).run with
  | .error e => fail e.chain
  | .ok report => do
    Script.display report.display
    return if report.isValid then 0 else failureStatus

/-- Builds a project and displays the report. -/
def runBuild (loaded : Loaded) (options : BuildOptions) (next : Built → Script Nat) :
    Script Nat := do
  match ← (Project.build loaded options).run with
  | .error e => fail e.chain
  | .ok built => do
    Script.display built.report.display
    next built

/-- Launches a worker that has been built. -/
def runLaunch (built : Built) (options : LaunchOptions) : Script Nat := do
  match ← (Launch.launch built.config options).run with
  | .error e => fail e.chain
  | .ok () => return 0

/-- Runs a command on a loaded project. -/
def runOn (command : Command) (loaded : Loaded) : Script Nat :=
  match command.verb with
  | .check => runCheck loaded
  | .build preview strategy =>
    runBuild loaded ⟨command.output, preview, strategy⟩ fun _ => return 0
  | .launch site init =>
    runBuild loaded ⟨command.output, false, .staged⟩ fun built =>
      runLaunch built ⟨command.output, init, site⟩

/-- Runs a command in the working directory. -/
def run (ambient : Dictionary String) (command : Command) : Script Nat := do
  match ← Script.request .workDir with
  | .error reason => fail [reason.message]
  | .ok root => do
    let api ← match command.file with
      | some file => pure file
      | none => usualApi root
    match ← (Project.load (projectIn root api ambient)).run with
    | .error e => fail [e.message]
    | .ok loaded => runOn command loaded

/-- Runs a command line. -/
def runLine (ambient : Dictionary String) (arguments : List String) : Script Nat := do
  match read arguments with
  | .error e => do
    Script.display [.error e.message]
    return usageStatus
  | .ok .help => do
    Script.display [.preformatted usageText]
    return 0
  | .ok .version => do
    Script.display [.preformatted versionText]
    return 0
  | .ok (.completions _) => return 0
  | .ok (.command command) => run ambient command

end WorkerGen.CommandLine
