import WorkerGen.Bindings.Reference
import WorkerGen.Config
import WorkerGen.Diagnostic

/-!
# Lints

Checks whose findings do not stop a compilation: operations without steps, bindings that have no
effect because their step acts on no resource, and declared bindings that no step uses.
-/

namespace WorkerGen

/-- A check whose findings are reported. -/
inductive Lint where
  /-- Operations with an empty list of steps. -/
  | emptySequence
  /-- Bindings on requests to other servers. -/
  | fetchBinding
  /-- Declared bindings that no step uses. -/
  | unusedBinding
deriving DecidableEq, Inhabited, Repr

namespace Lint

/-- All lints, in the order in which they run. -/
def all : List Lint := [.emptySequence, .fetchBinding, .unusedBinding]

/-- The name of a lint. -/
def name : Lint → String
  | .emptySequence => "empty-sequence"
  | .fetchBinding => "fetch-binding"
  | .unusedBinding => "unused-binding"

/-- The lint of a name. -/
def ofName? (name : String) : Option Lint := all.find? (·.name == name)

/-- A finding at a place. -/
def finding (severity : Severity) (message location : String) : Diagnostic :=
  ⟨severity, "validate", message, some location⟩

/-- The finding about a handler without steps. -/
def emptySequenceOf? (h : Handler) : Option Diagnostic :=
  if h.steps.isEmpty then
    some (finding .warning ("'" ++ h.id ++ "' declares no operations" ++
      (if h.response.isSome then "" else " and no x-response; it will respond with null"))
      h.location)
  else none

/-- The finding about a step that acts on no resource and names a binding. -/
def fetchBindingOf? (path : String) (method : Method) (index : Nat) (entry : StepEntry) :
    Option Diagnostic :=
  match entry.action, entry.binding with
  | .fetch .., some name =>
    some (finding .warning ("binding '" ++ name ++ "' on a fetch step is ignored")
      ("paths." ++ path ++ "." ++ method.name ++ ".x-operations[" ++ toString index ++ "]"))
  | _, _ => none

/-- The classes and names of the bindings that handlers use. -/
def usedBindings (handlers : List Handler) : List (Resource × String) :=
  (handlers.flatMap Handler.references).filterMap fun r => r.binding.map fun name =>
    (r.resource, name)

/-- The findings of a lint. -/
def findings (config : Config) (handlers : List Handler) : Lint → List Diagnostic
  | .emptySequence => handlers.filterMap emptySequenceOf?
  | .fetchBinding =>
    config.api.operations.flatMap fun (path, method, operation) =>
      ((operation.steps.getD []).mapIdx fun index entry =>
        fetchBindingOf? path method index entry).filterMap id
  | .unusedBinding =>
    Resource.all.flatMap fun resource =>
      ((config.bindings.names resource).filter fun name =>
        !(usedBindings handlers).contains (resource, name)).map fun name =>
          finding .info ("binding '" ++ name ++ "' is not used by any operation") resource.table

end Lint

end WorkerGen
