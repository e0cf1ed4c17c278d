import WorkerGen.Api.Serialized
import WorkerGen.Handler
import WorkerGen.Worker.Text

/-!
# The file of a handler

A handler becomes a function that performs its steps one after another and keeps each result under
the name of its step.  A step is a comment and a statement, each on a line of its own; whatever the
inputs hold stands in literals.

A step that acts on a resource needs a binding; without one the file cannot be written.
-/

namespace WorkerGen

/-- What of a handler its file is written from. -/
structure HandlerContent where
  steps : List Step
  response : Option Response
  defaults : Defaults
deriving DecidableEq

/-- What of a handler its file is written from. -/
def Handler.content (h : Handler) : HandlerContent := ⟨h.steps, h.response, h.defaults⟩

namespace Worker

/-- The name of the template that all handlers are written with. -/
def handlerTemplate : String := "handler.js"

/-- What is said about a step whose binding is missing. -/
def missingBindingMessage : String :=
  "failed to render template '" ++ handlerTemplate ++ "': Failed to render '" ++ handlerTemplate ++
    "': Variable \x60step.binding.name\x60 not found in context while rendering '" ++
    handlerTemplate ++ "'"

/-- The function that performs a statement. -/
def sqlFunction : SqlVerb → String
  | .query => "query"
  | .first => "first"
  | .run => "run"

/-- A value whose placeholders are resolved when the request is served. -/
def resolved (v : Json) : String := "resolve(" ++ v.encode ++ ", scope)"

/-- A call of a function on a resource. -/
def resourceCall (function binding : String) (arguments : List String) : String :=
  function ++ "(env, " ++ ", ".intercalate (quote binding :: arguments) ++ ")"

/-- The call that performs an action, given the binding of its step.  None if a binding is needed
and there is none. -/
def call? (binding : Option String) : Action → Option String
  | .sql verb statement arguments => binding.map fun name =>
    resourceCall ("db." ++ sqlFunction verb) name [quote statement, resolved (.array arguments)]
  | .kvGet key format => binding.map fun name =>
    resourceCall "keys.get" name [resolved (.string key), quote format.name]
  | .kvPut key value lifetime => binding.map fun name =>
    resourceCall "keys.put" name [resolved (.string key), resolved value,
      Json.encode ((lifetime.map fun n => Json.nat n.toNat).getD .null)]
  | .kvDelete key => binding.map fun name =>
    resourceCall "keys.remove" name [resolved (.string key)]
  | .r2Get key => binding.map fun name =>
    resourceCall "files.get" name [resolved (.string key)]
  | .r2Put key value contentType => binding.map fun name =>
    resourceCall "files.put" name [resolved (.string key), resolved value,
      Json.encode (.optionalString contentType)]
  | .r2Delete key => binding.map fun name =>
    resourceCall "files.remove" name [resolved (.string key)]
  | .fetch url method headers body =>
    some ("outbound(" ++ ", ".intercalate [resolved (.string url), quote method,
      resolved (Action.textsJson headers), resolved (body.getD .null)] ++ ")")

/-- The lines of the step at an index. -/
def stepLines (index : Nat) (step : Step) : Except String (List String) :=
  match call? (step.binding.map (·.name)) step.action with
  | none => .error missingBindingMessage
  | some call => .ok
    ["",
      "  // " ++ toString (index + 1) ++ ". " ++ step.action.name,
      "  last = results[" ++ quote step.name ++ "] = await " ++ call ++ ";"]

/-- The lines of steps, the first of which has the given index. -/
def stepsLines : (index : Nat) → List Step → Except String (List String)
  | _, [] => .ok []
  | index, step :: rest => do
    let lines ← stepLines index step
    return lines ++ (← stepsLines (index + 1) rest)

/-- The lines before the steps. -/
def handlerHead (content : HandlerContent) : List String :=
  [banner,
    "",
    "import \x7b createScope, request as outbound, resolve, respond \x7d from '../support.js';",
    "import * as db from '../db.js';",
    "import * as keys from '../keys.js';",
    "import * as files from '../files.js';",
    "",
    "export const DEFAULTS = " ++ content.defaults.toFullJson.encode ++ ";",
    "",
    "const RESPONSE = " ++ Json.encode ((content.response.map Response.toJson).getD .null) ++ ";",
    "",
    "export async function handle(request, env, ctx, params) \x7b",
    "  const scope = await createScope(request, env, params);",
    "  const results = scope.results;",
    "  let last = null;"]

/-- The lines behind the steps. -/
def handlerTail : List String :=
  ["",
    "  return respond(RESPONSE, last, scope);",
    "\x7d"]

/-- The file of a handler, or why it cannot be written. -/
def handler (content : HandlerContent) : Except String String := do
  let steps ← stepsLines 0 content.steps
  return ofLines (handlerHead content ++ steps ++ handlerTail)

end Worker

end WorkerGen
