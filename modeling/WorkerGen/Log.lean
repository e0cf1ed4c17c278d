/-!
# The log

What the program notes about its own progress, apart from what it reports to its user.
-/

namespace WorkerGen

/-- How important a note is. -/
inductive LogLevel where
  | error
  | warn
  | info
  | debug
deriving DecidableEq, Inhabited, Repr

/-- The word for a level. -/
def LogLevel.name : LogLevel → String
  | .error => "ERROR"
  | .warn => "WARN"
  | .info => "INFO"
  | .debug => "DEBUG"

/-- A note in the log, with named values. -/
structure LogEvent where
  level : LogLevel
  message : String
  fields : List (String × String)
deriving DecidableEq

end WorkerGen
