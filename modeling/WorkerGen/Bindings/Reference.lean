import WorkerGen.Bindings.Manifest
import WorkerGen.Handler

/-!
# References to bindings

A step that acts on a resource refers to a binding.  The reference is resolved if the manifest
declares that name for the class of the resource; `unresolvedReferences` lists the others, in the
order of the handlers and of their steps.
-/

namespace WorkerGen

/-- A reference of a step to a binding. -/
structure Reference where
  /-- The id of the handler. -/
  handler : String
  /-- The name under which the step keeps its result. -/
  step : String
  resource : Resource
  /-- The name of the binding, unless neither the step nor the defaults give one. -/
  binding : Option String
deriving DecidableEq

namespace Reference

/-- What is wrong with a reference that is not resolved. -/
def text (r : Reference) : String :=
  r.handler ++ " step '" ++ r.step ++ "': " ++
    match r.binding with
    | some name => "'" ++ name ++ "' is not declared in " ++ r.resource.table
    | none => "no binding given and no x-defaults." ++ r.resource.name

/-- Whether a manifest declares what is referred to. -/
def isResolved (m : Manifest) (r : Reference) : Bool := r.binding.any (m.declares r.resource)

end Reference

/-- The references of a handler, in the order of its steps. -/
def Handler.references (h : Handler) : List Reference :=
  h.resourceSteps.map fun (_, step, resource) =>
    ⟨h.id, step.name, resource, step.binding.map (·.name)⟩

/-- The references of handlers that a manifest does not resolve. -/
def unresolvedReferences (handlers : List Handler) (m : Manifest) : List Reference :=
  (handlers.flatMap Handler.references).filter (!·.isResolved m)

end WorkerGen
