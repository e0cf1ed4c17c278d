import WorkerGen.Listing
import WorkerGen.Method
import WorkerGen.Step.Action

/-!
# API descriptions

The parts of an API description that a worker is generated from: a title and a version, the
operations under their paths, and default bindings.  Everything else in such a document is left out.

An operation with a list of steps gets a handler of its own; one without is passed through.  Paths
and methods keep the order of the document, and a path has at most one operation for a method.
-/

namespace WorkerGen

/-- One step of an operation, as written. -/
structure StepEntry where
  /-- The binding the step names itself. -/
  binding : Option String
  /-- The name under which the result is kept. -/
  result : Option String
  action : Action
deriving DecidableEq

/-- The shape of a response. -/
structure Response where
  status : UInt16
  headers : Dictionary String
  body : Option Json
deriving DecidableEq

/-- The status of a response that gives none. -/
def Response.defaultStatus : UInt16 := 200

/-- An operation, as written. -/
structure Operation where
  id : Option String
  summary : Option String
  /-- The steps; without them the operation is passed through. -/
  steps : Option (List StepEntry)
  response : Option Response
deriving DecidableEq

/-- An operation of which nothing is written. -/
def Operation.blank : Operation := ⟨none, none, none, none⟩

instance : Inhabited Operation := ⟨.blank⟩

/-- The operations of a path, in document order. -/
abbrev PathItem := Listing Method Operation

/-- What a description says about itself. -/
structure Info where
  title : Option String
  version : Option String
  description : Option String
deriving DecidableEq, Inhabited

/-- The binding of each class of resources that steps use without naming one. -/
structure Defaults where
  d1 : Option String
  kv : Option String
  r2 : Option String
deriving DecidableEq, Inhabited

/-- The default binding of a class. -/
def Defaults.of (d : Defaults) : Resource → Option String
  | .d1 => d.d1
  | .kv => d.kv
  | .r2 => d.r2

/-- An API description. -/
structure Api where
  openapi : Option String
  info : Info
  paths : Listing String PathItem
  defaults : Defaults
deriving DecidableEq

namespace Api

/-- The description of an empty document. -/
def empty : Api := ⟨none, default, .empty, default⟩

instance : Inhabited Api := ⟨empty⟩

/-- Every operation with its path and method, in document order. -/
def operations (api : Api) : List (String × Method × Operation) :=
  api.paths.entries.flatMap fun (path, item) => item.entries.map fun (method, operation) =>
    (path, method, operation)

end Api

end WorkerGen
