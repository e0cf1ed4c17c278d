import WorkerGen.Config
import WorkerGen.Worker.Text

/-!
# The entry of a worker

The file that the platform loads.  It hands requests to the router and answers errors that nobody
caught.  Its head names the worker and the description that it was generated from.
-/

namespace WorkerGen.Worker

/-- What the entry does, which is the same for all workers. -/
def entryBody : List String :=
  ["",
    "export default \x7b",
    "  async fetch(request, env, ctx) \x7b",
    "    try \x7b",
    "      return await route(request, env, ctx);",
    "    \x7d catch (error) \x7b",
    "      console.error(error);",
    "      return json(\x7b error: 'Internal Server Error'," ++
      " message: error && error.message ? error.message : String(error) \x7d, 500);",
    "    \x7d",
    "  \x7d,",
    "\x7d;",
    ""]

/-- The lines of the entry. -/
def entryLines (config : Config) : List String :=
  [banner,
    "// Worker: " ++ config.bindings.name.getD "worker",
    "// API: " ++ config.api.info.title.getD "untitled" ++ " " ++ config.api.info.version.getD "",
    "",
    "import \x7b route \x7d from './router.js';",
    "import \x7b json \x7d from './support.js';"] ++ entryBody

/-- The text of the entry. -/
def entry (config : Config) : String := ofLines (entryLines config)

end WorkerGen.Worker
