import WorkerGen.Json.Value

/-!
# Diagnostics

What is reported about a project while it is compiled.  Errors stop the compilation at the next
check; warnings and remarks do not.
-/

namespace WorkerGen

/-- How grave a diagnostic is. -/
inductive Severity where
  /-- Stops the compilation. -/
  | error
  /-- The result may not do what is meant. -/
  | warning
  | info
deriving DecidableEq, Inhabited, Repr

/-- The word for a severity. -/
def Severity.name : Severity → String
  | .error => "error"
  | .warning => "warning"
  | .info => "info"

/-- A report about a project. -/
structure Diagnostic where
  severity : Severity
  /-- The name of the phase that reports. -/
  phase : String
  message : String
  /-- Where in the project the report belongs, if anywhere. -/
  location : Option String
deriving DecidableEq

namespace Diagnostic

/-- The text of a diagnostic. -/
def text (d : Diagnostic) : String :=
  d.severity.name ++ ": " ++ d.message ++
    match d.location with
    | none => ""
    | some location => " (at " ++ location ++ ")"

/-- Whether a diagnostic is an error. -/
def isError (d : Diagnostic) : Bool := d.severity == .error

/-- Whether a diagnostic is a warning. -/
def isWarning (d : Diagnostic) : Bool := d.severity == .warning

/-- A diagnostic as JSON, with its text. -/
def toJson (d : Diagnostic) : Json :=
  .object ([("severity", .string d.severity.name), ("phase", .string d.phase),
    ("message", .string d.message)] ++ Json.optionalMember "location" d.location ++
    [("text", .string d.text)])

end Diagnostic

end WorkerGen
