import WorkerGen.Worker.Text

/-!
# The support of handlers

The file with what handlers share: placeholders, the values of a request, responses and requests to
other servers.  It is the same for all workers, so that all that is known of it is its lines.
-/

namespace WorkerGen.Worker

/-- The functions that handlers share. -/
def supportBody : List String :=
  ["",
    "const EXACT_PLACEHOLDER = /^\\$\\\x7b([^\x7d]+)\\\x7d$/;",
    "const PLACEHOLDER = /\\$\\\x7b([^\x7d]+)\\\x7d/g;",
    "",
    "/** Look up a dotted path such as `results.user.id` in the scope. */",
    "export function lookup(scope, path) \x7b",
    "  return path",
    "    .trim()",
    "    .split('.')",
    "    .reduce((value, key) => " ++
      "(value === null || value === undefined ? undefined : value[key]), scope);",
    "\x7d",
    "",
    "/**",
    " * Resolve `$\x7bpath\x7d` placeholders in a value against the request scope.",
    " *",
    " * A string that is exactly one placeholder evaluates to the referenced value",
    " * itself; otherwise placeholders are stringified and spliced in.",
    " */",
    "export function resolve(value, scope) \x7b",
    "  if (typeof value === 'string') \x7b",
    "    const exact = value.match(EXACT_PLACEHOLDER);",
    "    if (exact) \x7b",
    "      const found = lookup(scope, exact[1]);",
    "      return found === undefined ? null : found;",
    "    \x7d",
    "    return value.replace(PLACEHOLDER, (_, path) => \x7b",
    "      const found = lookup(scope, path);",
    "      if (found === null || found === undefined) return '';",
    "      return typeof found === 'object' ? JSON.stringify(found) : String(found);",
    "    \x7d);",
    "  \x7d",
    "  if (Array.isArray(value)) \x7b",
    "    return value.map((item) => resolve(item, scope));",
    "  \x7d",
    "  if (value !== null && typeof value === 'object') \x7b",
    "    return Object.fromEntries(" ++
      "Object.entries(value).map(([key, item]) => [key, resolve(item, scope)]));",
    "  \x7d",
    "  return value;",
    "\x7d",
    "",
    "async function readRequest(request) \x7b",
    "  const type = request.headers.get('content-type') || '';",
    "  if (request.method === 'GET' || request.method === 'HEAD') \x7b",
    "    return \x7b body: null, form: null \x7d;",
    "  \x7d",
    "  if (type.includes('application/json')) \x7b",
    "    const text = await request.text();",
    "    return \x7b body: text ? JSON.parse(text) : null, form: null \x7d;",
    "  \x7d",
    "  if (type.includes('multipart/form-data') || " ++
      "type.includes('application/x-www-form-urlencoded')) \x7b",
    "    const data = await request.formData();",
    "    const form = \x7b\x7d;",
    "    for (const [key, value] of data.entries()) \x7b",
    "      form[key] = value;",
    "    \x7d",
    "    return \x7b body: null, form \x7d;",
    "  \x7d",
    "  const text = await request.text();",
    "  return \x7b body: text || null, form: null \x7d;",
    "\x7d",
    "",
    "/** Build the scope placeholders are resolved against. */",
    "export async function createScope(request, env, params) \x7b",
    "  const url = new URL(request.url);",
    "  const \x7b body, form \x7d = await readRequest(request);",
    "  return \x7b",
    "    params: params || \x7b\x7d,",
    "    query: Object.fromEntries(url.searchParams),",
    "    headers: Object.fromEntries(request.headers),",
    "    body,",
    "    form,",
    "    results: \x7b\x7d,",
    "    env,",
    "  \x7d;",
    "\x7d",
    "",
    "/** Fetch a binding from the worker environment. */",
    "export function binding(env, name, kind) \x7b",
    "  const value = env[name];",
    "  if (!value) \x7b",
    "    throw new Error(`$\x7bkind\x7d binding '$\x7bname\x7d' is not available`);",
    "  \x7d",
    "  return value;",
    "\x7d",
    "",
    "export function json(body, status = 200, headers = \x7b\x7d) \x7b",
    "  const init = \x7b status, headers: \x7b ...headers \x7d \x7d;",
    "  if (status === 204 || status === 304) \x7b",
    "    return new Response(null, init);",
    "  \x7d",
    "  if (!Object.keys(init.headers).some((name) => name.toLowerCase() === 'content-type')) \x7b",
    "    init.headers['Content-Type'] = 'application/json';",
    "  \x7d",
    "  return new Response(JSON.stringify(body === undefined ? null : body), init);",
    "\x7d",
    "",
    "/** Build the response from `x-response`, or from the last result. */",
    "export function respond(shape, last, scope) \x7b",
    "  if (!shape) \x7b",
    "    return json(last === undefined ? null : last);",
    "  \x7d",
    "  const headers = resolve(shape.headers || \x7b\x7d, scope);",
    "  const body = shape.body === null || shape.body === undefined ? null " ++
      ": resolve(shape.body, scope);",
    "  return json(body, shape.status || 200, headers);",
    "\x7d",
    "",
    "/** Outbound HTTP call; JSON responses are parsed. */",
    "export async function request(url, method, headers, body) \x7b",
    "  const init = \x7b method, headers: \x7b ...headers \x7d \x7d;",
    "  if (body !== null && body !== undefined) \x7b",
    "    if (typeof body === 'string') \x7b",
    "      init.body = body;",
    "    \x7d else \x7b",
    "      init.body = JSON.stringify(body);",
    "      init.headers['Content-Type'] = init.headers['Content-Type'] || 'application/json';",
    "    \x7d",
    "  \x7d",
    "  const response = await fetch(url, init);",
    "  const type = response.headers.get('content-type') || '';",
    "  if (type.includes('application/json')) \x7b",
    "    return response.json();",
    "  \x7d",
    "  return response.text();",
    "\x7d",
    ""]

/-- The support of handlers. -/
def support : String := ofLines (banner :: supportBody)

end WorkerGen.Worker
