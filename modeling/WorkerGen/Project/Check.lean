import WorkerGen.Project.Load

/-!
# Checking a project

A project is checked by running its compilation, without rendering anything.  The report says what
the compilation has reported, and what would be generated.

A compilation that fails makes a check fail with the cause alone, while the reports are of use where
it succeeds: a project has passed if there is no error among them (`isValid`).
-/

namespace WorkerGen

/-- A diagnostic with its location on a second line. -/
def Diagnostic.description (d : Diagnostic) : String :=
  match d.location with
  | some location => d.message ++ "\n  --> " ++ location
  | none => d.message

/-- A plural ending, unless there is one thing. -/
def plural (count : Nat) : String := if count = 1 then "" else "s"

/-- The result of checking a project. -/
structure CheckReport where
  apiPath : Path
  errors : List String
  warnings : List String
  infos : List String
  /-- The ids of the handlers that would be generated. -/
  handlers : List String
  routeCount : Nat
deriving DecidableEq

namespace CheckReport

/-- Whether a project has passed. -/
def isValid (r : CheckReport) : Bool := r.errors.isEmpty

/-- A report as it is displayed. -/
def display (r : CheckReport) : List DisplayItem :=
  r.errors.map .error ++ r.warnings.map .warning ++
    r.infos.map (fun info => .preformatted ("info: " ++ info)) ++
    (if r.warnings.isEmpty && r.errors.isEmpty && r.infos.isEmpty then [] else [.newline]) ++
    if r.isValid then
      [.preformatted ("✓ " ++ r.apiPath.text ++ " is valid"), .newline,
        .section (toString r.routeCount ++ " route" ++ plural r.routeCount ++ ", " ++
          toString r.handlers.length ++ " handler" ++ plural r.handlers.length)] ++
        r.handlers.map .listItem
    else []

end CheckReport

namespace Compilation

/-- What has been reported with a severity. -/
def descriptions (c : Compilation) (severity : Severity) : List String :=
  (c.diagnostics.filter (·.severity == severity)).map Diagnostic.description

end Compilation

namespace Project

/-- What checking a project finds. -/
def inspect (l : Loaded) : Except CompileError CheckReport := do
  let c ← (Compilation.ofLoaded l).compile
  return {
    apiPath := l.apiPath
    errors := c.descriptions .error
    warnings := c.descriptions .warning
    infos := c.descriptions .info
    handlers := (c.handlers.getD []).map (·.id)
    routeCount := (c.routes.getD []).length }

/-- What is logged while a project is compiled. -/
def compileLog (l : Loaded) : List LogEvent :=
  (Compilation.ofLoaded l).phasesLog (Compilation.phases Lint.all)

/-- Why a project does not pass a check. -/
structure CheckError where
  cause : CompileError
deriving DecidableEq

/-- The texts of an error, the most general first. -/
def CheckError.chain (e : CheckError) : List String := ["Validation failed", e.cause.message]

/-- Checks a project. -/
def check (l : Loaded) : ExceptT CheckError Script CheckReport := do
  ExceptT.lift (Script.log (compileLog l))
  match inspect l with
  | .ok report => return report
  | .error e => throw ⟨e⟩

end Project

end WorkerGen
