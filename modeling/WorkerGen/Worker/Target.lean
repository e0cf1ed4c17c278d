import WorkerGen.Build.Target
import WorkerGen.Worker.Entry
import WorkerGen.Worker.Router
import WorkerGen.Worker.Support
import WorkerGen.Worker.Tables

/-!
# The files of a worker

The target that all workers are generated for: an entry, a router, a file for each class of
resources, the support of handlers, and the handlers.
-/

namespace WorkerGen.Worker

/-- A global file of a worker. -/
inductive GlobalFile where
  | entry
  | router
  | databases
  | namespaces
  | buckets
  | support
deriving DecidableEq, Inhabited, Repr

namespace GlobalFile

/-- All global files, in order. -/
def all : List GlobalFile := [.entry, .router, .databases, .namespaces, .buckets, .support]

/-- The name of a global file. -/
def name : GlobalFile → String
  | .entry => "index.js"
  | .router => "router.js"
  | .databases => "db.js"
  | .namespaces => "keys.js"
  | .buckets => "files.js"
  | .support => "support.js"

/-- The content of a global file. -/
def content (config : Config) (routes : List Route) : GlobalFile → String
  | .entry => Worker.entry config
  | .router => Worker.router routes
  | .databases => Worker.databases config.bindings
  | .namespaces => Worker.namespaces config.bindings
  | .buckets => Worker.buckets config.bindings
  | .support => Worker.support

end GlobalFile

/-- The content of the global file of a name. -/
def renderGlobal (name : String) (config : Config) (routes : List Route) : Except String String :=
  match GlobalFile.all.find? (·.name == name) with
  | some file => .ok (file.content config routes)
  | none => .error ("failed to render template '" ++ name ++ "'")

/-- The target of all workers. -/
def target : Target where
  name := "worker"
  extension := "js"
  globals := GlobalFile.all.map GlobalFile.name
  renderGlobal := renderGlobal
  renderHandler := Worker.handler

end WorkerGen.Worker
