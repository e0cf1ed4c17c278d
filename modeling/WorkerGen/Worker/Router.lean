import WorkerGen.Handler
import WorkerGen.Worker.Text

/-!
# The router of a worker

The file that holds the routing table and finds the handler of a request.  Every handler in the
table is imported under a name of its own, which is made from its place in the table and its id.

A route has its path, its segments, its method and the name of its handler on lines of their own.  A
route without a handler has a word for that in its place.  How a request is matched is written below
the table and is the same for all workers.
-/

namespace WorkerGen.Worker

/-- The id of the handler of a route.  An empty id counts as none. -/
def handlerOf? (route : Route) : Option String := route.handler.filter (!·.isEmpty)

/-- The name of an imported handler, by its place in the table and its id. -/
def importName (index : Nat) (id : String) : String :=
  "handle_" ++ toString index ++ "_" ++ identifier id

/-- The path of the file of a handler, seen from the router. -/
def modulePath (id : String) : String := "./handlers/" ++ id ++ ".js"

/-- The line that imports the handler of a route. -/
def importLine? (index : Nat) (route : Route) : Option String :=
  (handlerOf? route).map fun id =>
    "import \x7b handle as " ++ importName index id ++ " \x7d from " ++ quote (modulePath id) ++ ";"

/-- The name that stands for the handler of a route in the table. -/
def handlerWord (index : Nat) (route : Route) : String :=
  match handlerOf? route with
  | some id => importName index id
  | none => "null"

/-- The lines of a route in the table. -/
def routeLines (index : Nat) (route : Route) : List String :=
  ["  \x7b",
    "    method: " ++ quote route.method.upperName ++ ",",
    "    path: " ++ quote route.path ++ ",",
    "    segments: " ++ route.segmentsJson.encode ++ ",",
    "    handler: " ++ handlerWord index route ++ ",",
    "  \x7d,"]

/-- How a request is matched, which is the same for all workers. -/
def routerBody : List String :=
  ["",
    "// Malformed escapes (`%E0%A4%A`) make a segment unmatchable",
    "function decodeSegment(part) \x7b",
    "  try \x7b",
    "    return decodeURIComponent(part);",
    "  \x7d catch \x7b",
    "    return null;",
    "  \x7d",
    "\x7d",
    "",
    "function match(segments, parts) \x7b",
    "  if (segments.length !== parts.length) \x7b",
    "    return null;",
    "  \x7d",
    "  const params = \x7b\x7d;",
    "  for (let i = 0; i < segments.length; i++) \x7b",
    "    const segment = segments[i];",
    "    if ('param' in segment) \x7b",
    "      const value = decodeSegment(parts[i]);",
    "      if (value === null) \x7b",
    "        return null;",
    "      \x7d",
    "      params[segment.param] = value;",
    "    \x7d else if (segment.literal !== parts[i]) \x7b",
    "      return null;",
    "    \x7d",
    "  \x7d",
    "  return params;",
    "\x7d",
    "",
    "export async function route(request, env, ctx) \x7b",
    "  const url = new URL(request.url);",
    "  const parts = url.pathname.split('/').filter((part) => part.length > 0);",
    "",
    "  for (const entry of ROUTES) \x7b",
    "    if (entry.method !== request.method) \x7b",
    "      continue;",
    "    \x7d",
    "    const params = match(entry.segments, parts);",
    "    if (!params) \x7b",
    "      continue;",
    "    \x7d",
    "    if (!entry.handler) \x7b",
    "      return fetch(request);",
    "    \x7d",
    "    return entry.handler(request, env, ctx, params);",
    "  \x7d",
    "",
    "  return json(\x7b error: 'Not Found' \x7d, 404);",
    "\x7d",
    ""]

/-- The lines of the router. -/
def routerLines (routes : List Route) : List String :=
  [banner,
    "// Routes are ordered most specific first; passthrough routes are forwarded unchanged.",
    "",
    "import \x7b json \x7d from './support.js';"] ++
  (routes.mapIdx importLine?).filterMap id ++
  ["", "const ROUTES = ["] ++
  (routes.mapIdx routeLines).flatten ++
  ["];"] ++ routerBody

/-- The text of the router. -/
def router (routes : List Route) : String := ofLines (routerLines routes)

end WorkerGen.Worker
