import WorkerGen.Build.Write

/-!
# Emitting a worker

All files of a worker are rendered before anything is written, so that a file that cannot be
rendered leaves the output directory as it is.  What has been written is logged afterwards.
-/

namespace WorkerGen

/-- Why a worker is not emitted. -/
inductive EmitError where
  | render (error : RenderError)
  | write (error : WriteError)
deriving DecidableEq

/-- The wording of an error. -/
def EmitError.message : EmitError → String
  | .render e => e.message
  | .write e => e.message

/-- An emitted worker. -/
structure Emitted where
  output : Path
  /-- The paths of the files, in the order in which they are rendered. -/
  files : List Path
  /-- The ids of the handlers. -/
  handlers : List String
deriving DecidableEq

namespace Build

/-- What is logged about an emitted handler. -/
def generated (t : Target) (h : Handler) : LogEvent :=
  ⟨.info, "generated handler", [("platform", t.name), ("handler", h.id)]⟩

/-- Renders a worker and replaces the output directory by it. -/
def emit (t : Target) (strategy : WriteStrategy) (output : Path) (config : Config)
    (routes : List Route) (handlers : List Handler) : ExceptT EmitError Script Emitted := do
  match t.render config routes handlers with
  | .error e => throw (.render e)
  | .ok files =>
    match ← ExceptT.lift (write strategy output files).run with
    | .error e => throw (.write e)
    | .ok () =>
      ExceptT.lift (Script.log (handlers.map (generated t)))
      return ⟨output, files.map (·.path), handlers.map (·.id)⟩

end Build

end WorkerGen
