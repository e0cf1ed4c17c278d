import WorkerGen.Api.Serialized
import WorkerGen.Identifier
import WorkerGen.Route

/-!
# Handlers and the routing table

A handler is an operation with its steps, made ready for generation: it has an id, every step has a
name for its result, and every step that acts on a resource is bound if the step or the defaults of
the description name a binding.

The routing table has a route for every operation.  Routes with fewer parameters come first, so that
a fixed path wins over one with a parameter, and ties keep the order of the document.
-/

namespace WorkerGen

/-- Where the binding of a step comes from. -/
inductive BindingSource where
  /-- The step names it. -/
  | explicit
  /-- The defaults of the description name it. -/
  | inherited
deriving DecidableEq, Inhabited

/-- The word for a source. -/
def BindingSource.name : BindingSource → String
  | .explicit => "explicit"
  | .inherited => "default"

/-- A binding that a step uses. -/
structure Binding where
  name : String
  source : BindingSource
deriving DecidableEq

/-- A step of a handler. -/
structure Step where
  /-- The name under which the result is kept. -/
  name : String
  binding : Option Binding
  action : Action
deriving DecidableEq

/-- An operation that is ready for generation. -/
structure Handler where
  id : String
  method : Method
  path : String
  steps : List Step
  response : Option Response
  /-- The default bindings of the description. -/
  defaults : Defaults
deriving DecidableEq

/-- The binding of a step: the one it names itself, else the default of its class.  A step that
acts on no resource has none. -/
def StepEntry.binding? (entry : StepEntry) (defaults : Defaults) : Option Binding :=
  match entry.action.resource? with
  | none => none
  | some resource =>
    match entry.binding with
    | some name => some ⟨name, .explicit⟩
    | none => (defaults.of resource).map fun name => ⟨name, .inherited⟩

/-- The step of an entry that stands at an index. -/
def StepEntry.toStep (entry : StepEntry) (defaults : Defaults) (index : Nat) : Step :=
  ⟨entry.result.getD ("step" ++ toString (index + 1)), entry.binding? defaults, entry.action⟩

/-- The steps of a list of entries. -/
def stepsOf (defaults : Defaults) (entries : List StepEntry) : List Step :=
  entries.mapIdx fun index entry => entry.toStep defaults index

namespace Handler

/-- The handler of an operation, unless that is passed through. -/
def ofOperation? (defaults : Defaults) (path : String) (method : Method)
    (operation : Operation) : Option Handler :=
  operation.steps.map fun entries =>
    ⟨handlerId operation.id path method, method, path, stepsOf defaults entries,
      operation.response, defaults⟩

/-- The handlers of a description, in document order. -/
def ofApi (api : Api) : List Handler :=
  api.operations.filterMap fun (path, method, operation) =>
    ofOperation? api.defaults path method operation

/-- The steps that act on a resource, with their index and the class of the resource. -/
def resourceSteps (h : Handler) : List (Nat × Step × Resource) :=
  (h.steps.mapIdx fun index step => (index, step)).filterMap fun (index, step) =>
    step.action.resource?.map fun resource => (index, step, resource)

/-- Where the operation stands in the description. -/
def location (h : Handler) : String := "paths." ++ h.path ++ "." ++ h.method.name

end Handler

/-! ## The routing table -/

namespace Route

/-- The id of the handler for a path and method: that of the last such handler. -/
def handlerFor? (handlers : List Handler) (path : String) (method : Method) : Option String :=
  (handlers.reverse.find? fun h => h.path == path && h.method == method).map (·.id)

/-- The routing table of a description, with the given handlers. -/
def table (api : Api) (handlers : List Handler) : List Route :=
  (api.operations.map fun (path, method, _) =>
    Route.new method path (handlerFor? handlers path method)).mergeSort
      fun a b => a.paramCount ≤ b.paramCount

end Route

/-! ## As JSON -/

/-- A binding as JSON. -/
def Binding.toJson (b : Binding) : Json :=
  .object [("name", .string b.name), ("source", .string b.source.name)]

/-- A step as JSON. -/
def Step.toJson (s : Step) : Json :=
  .object ([("name", .string s.name), ("binding", (s.binding.map Binding.toJson).getD .null)] ++
    s.action.members)

end WorkerGen
