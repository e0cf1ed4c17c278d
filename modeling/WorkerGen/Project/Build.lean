import WorkerGen.Build.Emit
import WorkerGen.Project.Check
import WorkerGen.Worker.Target

/-!
# Building a project

A project is built by running its compilation and emitting the worker.  A *preview* renders the
worker and writes nothing.

The compilation is the one that a check runs, and a preview and a build share it too; they differ in
what is done with the files (`produce`).  The report says what the compilation has reported, and
what has come of the files.
-/

namespace WorkerGen

/-- How a project is built. -/
structure BuildOptions where
  /-- The output directory. -/
  output : Path
  /-- Whether only a preview is asked for. -/
  preview : Bool
  strategy : WriteStrategy
deriving DecidableEq

/-- What has come of a build. -/
inductive BuildResult where
  | written (emitted : Emitted)
  | preview (files : List OutputFile)
deriving DecidableEq

/-- The result of building a project. -/
structure BuildReport where
  apiPath : Path
  /-- The name that the manifest gives the worker. -/
  workerName : Option String
  apiTitle : Option String
  apiVersion : Option String
  warnings : List String
  routeCount : Nat
  passthroughCount : Nat
  result : BuildResult
deriving DecidableEq

/-- A project that has been built, with its inputs. -/
structure Built where
  report : BuildReport
  config : Config

/-- Why a project is not built. -/
inductive BuildError where
  | compile (error : CompileError)
  /-- A preview that cannot be rendered. -/
  | preview (error : RenderError)
  | emit (error : EmitError)
deriving DecidableEq

/-- The texts of an error, the most general first. -/
def BuildError.chain : BuildError → List String
  | .compile e => ["Compilation failed", e.message]
  | .preview e => [e.message]
  | .emit e => ["Failed to write worker", e.message]

namespace BuildReport

/-! ## Reports

A report is displayed as items, one for each diagnostic and for each file. -/

/-- The name of what has been built, with its version. -/
def heading (r : BuildReport) : String :=
  let name := (r.workerName <|> r.apiTitle).getD "worker"
  match r.apiVersion with
  | some version => name ++ " v" ++ version
  | none => name

/-- The items about handlers that have been written. -/
def handlerItems (handlers : List String) : List DisplayItem :=
  if handlers.isEmpty then []
  else [.section ("Handlers (" ++ toString handlers.length ++ ")")] ++
    handlers.map (fun id => .addedItem (Target.handlersDir.text ++ "/" ++ id ++ ".js")) ++
    [.newline]

/-- The items about a worker that has been written. -/
def writtenItems (r : BuildReport) (e : Emitted) : List DisplayItem :=
  [.preformatted r.heading,
    .keyValue "API" r.apiPath.text,
    .keyValue "Routes" (toString r.routeCount ++ " (" ++ toString r.passthroughCount ++
      " passthrough)"),
    .newline] ++ handlerItems e.handlers ++
    [.keyValue "Generated" (e.output.text ++ " (" ++ toString e.files.length ++ " files)")]

/-- The items about a preview. -/
def previewItems (files : List OutputFile) : List DisplayItem :=
  files.flatMap (fun file => [.divider file.path.text, .preformatted file.content]) ++
    [.divider "Summary", .preformatted (toString files.length ++ " files would be generated")]

/-- A report as it is displayed. -/
def display (r : BuildReport) : List DisplayItem :=
  r.warnings.map .warning ++
    match r.result with
    | .written e => r.writtenItems e
    | .preview files => previewItems files

end BuildReport

namespace Project

/-! ## Building

The files are rendered in any case, and written unless they are only to be seen. -/

/-- The files of a worker, or what came of writing them. -/
def produce (t : Target) (options : BuildOptions) (config : Config) (routes : List Route)
    (handlers : List Handler) : ExceptT BuildError Script BuildResult :=
  if options.preview then
    match t.render config routes handlers with
    | .ok files => return .preview files
    | .error e => throw (.preview e)
  else do
    match ← ExceptT.lift (Build.emit t options.strategy options.output config routes handlers).run
      with
    | .ok emitted => return .written emitted
    | .error e => throw (.emit e)

/-- Builds a project. -/
def build (l : Loaded) (options : BuildOptions) : ExceptT BuildError Script Built := do
  ExceptT.lift (Script.log (compileLog l))
  match (Compilation.ofLoaded l).compile with
  | .error e => throw (.compile e)
  | .ok c =>
    let routes := c.routes.getD []
    let result ← produce Worker.target options c.config routes (c.handlers.getD [])
    return {
      report := {
        apiPath := l.apiPath
        workerName := c.config.bindings.name
        apiTitle := c.config.api.info.title
        apiVersion := c.config.api.info.version
        warnings := c.descriptions .warning
        routeCount := routes.length
        passthroughCount := routes.countP Route.isPassthrough
        result }
      config := c.config }

end Project

end WorkerGen
