import WorkerGen.Config
import WorkerGen.Files.Path
import WorkerGen.Worker.Handler

/-!
# Targets and their files

A target says which files make up a worker and what is in them: some *global* files, which depend on
the inputs and the routing table, and one file for each handler.  `Target.render` gives all files of
a worker in order, global ones first, or the first file that cannot be written.
-/

namespace WorkerGen

/-- A file of a worker, with its path seen from the output directory. -/
structure OutputFile where
  path : Path
  content : String
deriving DecidableEq

/-- What files a worker has and what is in them. -/
structure Target where
  /-- The name of the target in the log. -/
  name : String
  /-- What the names of handler files end with, behind a dot. -/
  extension : String
  /-- The names of the global files, in order. -/
  globals : List String
  /-- The content of a global file, or why it cannot be written. -/
  renderGlobal : String → Config → List Route → Except String String
  /-- The content of the file of a handler, or why it cannot be written. -/
  renderHandler : HandlerContent → Except String String

/-- A file that cannot be written. -/
structure RenderError where
  file : String
  reason : String
deriving DecidableEq

/-- The wording of an error. -/
def RenderError.message (e : RenderError) : String :=
  "failed to render '" ++ e.file ++ "': " ++ e.reason

namespace Target

/-- The directory of the handler files. -/
def handlersDir : Path := "handlers"

/-- The path of the file of a handler. -/
def handlerPath (t : Target) (id : String) : Path := handlersDir.join ⟨id ++ "." ++ t.extension⟩

/-- A file whose content may be refused. -/
def fileOf (path : Path) : Except String String → Except RenderError OutputFile
  | .ok content => .ok ⟨path, content⟩
  | .error reason => .error ⟨path.text, reason⟩

/-- The files of a worker. -/
def render (t : Target) (config : Config) (routes : List Route) (handlers : List Handler) :
    Except RenderError (List OutputFile) := do
  let globals ← t.globals.mapM fun name => fileOf ⟨name⟩ (t.renderGlobal name config routes)
  let modules ← handlers.mapM fun h => fileOf (t.handlerPath h.id) (t.renderHandler h.content)
  return globals ++ modules

end Target

end WorkerGen
