import WorkerGen.Compile.Check
import WorkerGen.Compile.Lint
import WorkerGen.Log

/-!
# Compilations

A compilation starts from its inputs and goes through phases.  `lower` builds the handlers,
`validate` checks them, and `analyze` builds the routing table; further phases may report what they
find.  A phase that fails leaves the compilation as it was, apart from what it has reported.

Without a manifest, a reference to a binding is only reported, since the binding may still be there
when the worker runs; a step without any binding remains an error.

Handlers and routes are absent until a phase has built them, and a phase that needs them fails where
they are.  `compile` runs all phases in order, with all lints, and `runPhases` runs any.
-/

namespace WorkerGen

/-- A compilation. -/
structure Compilation where
  config : Config
  /-- Whether there is a manifest. -/
  declared : Bool
  /-- The handlers, once they are built. -/
  handlers : Option (List Handler)
  /-- The routing table, once it is built. -/
  routes : Option (List Route)
  /-- What has been reported, oldest first. -/
  diagnostics : List Diagnostic

namespace Compilation

/-- The start of a compilation with a manifest. -/
def new (config : Config) : Compilation := ⟨config, true, none, none, []⟩

/-- Says whether there is a manifest. -/
def declare (c : Compilation) (declared : Bool) : Compilation := { c with declared }

/-- Replaces the description. -/
def withApi (c : Compilation) (api : Api) : Compilation :=
  { c with config := { c.config with api } }

/-- Adds reports. -/
def report (c : Compilation) (diagnostics : List Diagnostic) : Compilation :=
  { c with diagnostics := c.diagnostics ++ diagnostics }

/-- The errors that have been reported. -/
def errors (c : Compilation) : List Diagnostic := c.diagnostics.filter (·.isError)

/-- The warnings that have been reported. -/
def warnings (c : Compilation) : List Diagnostic := c.diagnostics.filter (·.isWarning)

/-- What is said when handlers are asked for before they are built. -/
def noHandlersMessage : String := "operation units not set - did LowerPhase run?"

/-- What is said when routes are asked for before they are built. -/
def noRoutesMessage : String := "routes not set - did AnalyzePhase run?"

end Compilation

/-! ## Phases

A phase is given a compilation and answers the one after it, with the reason for which it has
failed, if it has. -/

/-- A step of a compilation. -/
inductive Phase where
  /-- Builds the handlers. -/
  | lower
  /-- Checks the handlers and runs lints. -/
  | validate (lints : List Lint)
  /-- Builds the routing table. -/
  | analyze
  /-- Reports findings and does nothing else. -/
  | survey (name purpose : String) (findings : Compilation → List Diagnostic)

namespace Phase

/-- The name of a phase. -/
def name : Phase → String
  | .lower => "lower"
  | .validate _ => "validate"
  | .analyze => "analyze"
  | .survey name _ _ => name

/-- What a phase is for. -/
def purpose : Phase → String
  | .lower => "Build operation units from the API description"
  | .validate _ => "Check handler ids and binding references"
  | .analyze => "Derive the routing table"
  | .survey _ purpose _ => purpose

/-- The warning about a reference to a binding that may be there when the worker runs. -/
def referenceWarning (r : Reference) : Diagnostic :=
  ⟨.warning, "validate", r.text, some r.resource.table⟩

/-- The references that fail a compilation: with a manifest all that it does not resolve, without
one those that name nothing. -/
def fatalReferences (declared : Bool) (references : List Reference) : List Reference :=
  if declared then references else references.filter (·.binding.isNone)

/-- The references that are only reported: without a manifest those that name a binding. -/
def toleratedReferences (declared : Bool) (references : List Reference) : List Reference :=
  if declared then [] else references.filter (·.binding.isSome)

/-- Checks handlers: ids before result names, those before references, and lints last. -/
def validateHandlers (lints : List Lint) (c : Compilation) (handlers : List Handler) :
    Compilation × Option CompileError :=
  match checkIds handlers *> checkResultNames handlers with
  | .error e => (c, some e)
  | .ok () =>
    let unresolved := unresolvedReferences handlers c.config.bindings
    let c := c.report ((toleratedReferences c.declared unresolved).map referenceWarning)
    match fatalReferences c.declared unresolved with
    | r :: rest => (c, some (.unresolved (r :: rest)))
    | [] =>
      let c := c.report (lints.flatMap (·.findings c.config handlers))
      if c.errors.isEmpty then (c, none) else (c, some (.errorsReported c.errors.length))

/-- Runs a phase: the compilation after it, and why it failed if it did. -/
def run (c : Compilation) : Phase → Compilation × Option CompileError
  | .lower => ({ c with handlers := some (Handler.ofApi c.config.api) }, none)
  | .validate lints =>
    match c.handlers with
    | none => (c, some (.notLowered "ValidatePhase"))
    | some handlers => validateHandlers lints c handlers
  | .analyze =>
    match c.handlers with
    | none => (c, some (.notLowered "AnalyzePhase"))
    | some handlers => ({ c with routes := some (Route.table c.config.api handlers) }, none)
  | .survey _ _ findings => (c.report (findings c), none)

/-- What is logged after a phase, given the compilation that it left. -/
def summary (c : Compilation) : Phase → List LogEvent
  | .lower =>
    [⟨.debug, "lowered operation units", [("units", toString (c.handlers.getD []).length)]⟩]
  | .analyze =>
    let routes := c.routes.getD []
    [⟨.debug, "built routing table", [("routes", toString routes.length),
      ("passthrough", toString (routes.countP Route.isPassthrough))]⟩]
  | .validate _ | .survey .. => []

end Phase

namespace Compilation

/-! ## Running phases

Phases are run in order up to the first that fails.  What has been reported until then is kept. -/

/-- Runs phases in order, up to the first that fails. -/
def runPhases (c : Compilation) : List Phase → Except CompileError Compilation
  | [] => .ok c
  | phase :: rest =>
    match phase.run c with
    | (_, some e) => .error e
    | (c, none) => runPhases c rest

/-- What is logged while phases run. -/
def phasesLog (c : Compilation) : List Phase → List LogEvent
  | [] => []
  | phase :: rest =>
    ⟨.debug, phase.purpose, [("phase", phase.name)]⟩ ::
      match phase.run c with
      | (_, some _) => []
      | (c, none) => phase.summary c ++ phasesLog c rest

/-- The phases of every compilation. -/
def phases (lints : List Lint) : List Phase := [.lower, .validate lints, .analyze]

/-- Runs the phases of a compilation with all lints. -/
def compile (c : Compilation) : Except CompileError Compilation := c.runPhases (phases Lint.all)

end Compilation

end WorkerGen
