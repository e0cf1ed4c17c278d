import WorkerGen.Bindings.Manifest
import WorkerGen.Worker.Text

/-!
# The resources of a worker

The files through which handlers reach databases, namespaces and buckets.  Each begins with a table
of the bindings that the manifest declares, one to a line, in the order of the manifest.

The tables show declarations as they are serialized.  A name that is not given has no member there,
and the name of the binding takes its place (`memberOr`); one that is given is shown, even if it is
empty.
-/

namespace WorkerGen.Worker

/-- The member of an object, or another value where the object has none of that name. -/
def memberOr (absent : Json) (key : String) : Json → Json
  | .object members => (members.lookup key).getD absent
  | _ => absent

/-- The line of a binding and of the resource behind it, which a member of the declaration names. -/
def pairLine (binding : String) (declaration : Json) (key : String) : String :=
  "  " ++ quote binding ++ ": " ++ (memberOr (.string binding) key declaration).encode ++ ","

/-! ## Databases

A database is shown by its binding and its name. -/

/-- The head of the file for databases. -/
def databasesHead : List String :=
  [banner,
    "// D1 access for operation handlers.",
    "",
    "import \x7b binding \x7d from './support.js';",
    "",
    "/** Declared D1 bindings and the databases behind them. */",
    "export const DATABASES = Object.freeze(\x7b"]

/-- The functions of the file for databases. -/
def databasesBody : List String :=
  ["",
    "function statement(env, name, sql, params) \x7b",
    "  const db = binding(env, name, 'D1');",
    "  const prepared = db.prepare(sql);",
    "  return params && params.length ? prepared.bind(...params) : prepared;",
    "\x7d",
    "",
    "/** Run a statement and return all rows. */",
    "export async function query(env, name, sql, params) \x7b",
    "  const \x7b results \x7d = await statement(env, name, sql, params).all();",
    "  return results;",
    "\x7d",
    "",
    "/** Run a statement and return the first row, or null. */",
    "export async function first(env, name, sql, params) \x7b",
    "  const row = await statement(env, name, sql, params).first();",
    "  return row === undefined ? null : row;",
    "\x7d",
    "",
    "/** Run a statement and return its metadata (`last_row_id`, `changes`, ...). */",
    "export async function run(env, name, sql, params) \x7b",
    "  const \x7b meta \x7d = await statement(env, name, sql, params).run();",
    "  return meta;",
    "\x7d",
    ""]

/-- The line of a database. -/
def databaseLine (d : D1Database) : String := pairLine d.binding d.toJson "database_name"

/-- The file for databases. -/
def databases (m : Manifest) : String :=
  ofLines (databasesHead ++ m.d1Databases.map databaseLine ++ ["\x7d);"] ++ databasesBody)

/-! ## Namespaces

A namespace has no name besides its binding. -/

/-- The head of the file for namespaces. -/
def namespacesHead : List String :=
  [banner,
    "// KV access for operation handlers.",
    "",
    "import \x7b binding \x7d from './support.js';",
    "",
    "/** Declared KV namespace bindings. */",
    "export const NAMESPACES = Object.freeze(["]

/-- The functions of the file for namespaces. -/
def namespacesBody : List String :=
  ["",
    "function namespace(env, name) \x7b",
    "  return binding(env, name, 'KV');",
    "\x7d",
    "",
    "/** Read a key; `type` is 'text' or 'json'. Missing keys read as null. */",
    "export async function get(env, name, key, type) \x7b",
    "  return namespace(env, name).get(key, type === 'json' ? 'json' : 'text');",
    "\x7d",
    "",
    "export async function put(env, name, key, value, ttl) \x7b",
    "  const data = typeof value === 'string' ? value : JSON.stringify(value);",
    "  const options = ttl ? \x7b expirationTtl: ttl \x7d : undefined;",
    "  await namespace(env, name).put(key, data, options);",
    "  return \x7b key \x7d;",
    "\x7d",
    "",
    "export async function remove(env, name, key) \x7b",
    "  await namespace(env, name).delete(key);",
    "  return \x7b key \x7d;",
    "\x7d",
    ""]

/-- The line of a namespace. -/
def namespaceLine (n : KvNamespace) : String := "  " ++ quote n.binding ++ ","

/-- The file for namespaces. -/
def namespaces (m : Manifest) : String :=
  ofLines (namespacesHead ++ m.kvNamespaces.map namespaceLine ++ ["]);"] ++ namespacesBody)

/-! ## Buckets

A bucket is shown by its binding and its name. -/

/-- The head of the file for buckets. -/
def bucketsHead : List String :=
  [banner,
    "// R2 access for operation handlers.",
    "",
    "import \x7b binding \x7d from './support.js';",
    "",
    "/** Declared R2 bindings and the buckets behind them. */",
    "export const BUCKETS = Object.freeze(\x7b"]

/-- The functions of the file for buckets. -/
def bucketsBody : List String :=
  ["",
    "function bucket(env, name) \x7b",
    "  return binding(env, name, 'R2');",
    "\x7d",
    "",
    "/** Read an object as text with its metadata. Missing objects read as null. */",
    "export async function get(env, name, key) \x7b",
    "  const object = await bucket(env, name).get(key);",
    "  if (!object) \x7b",
    "    return null;",
    "  \x7d",
    "  return \x7b",
    "    key: object.key,",
    "    size: object.size,",
    "    etag: object.etag,",
    "    contentType: (object.httpMetadata && object.httpMetadata.contentType) || null,",
    "    text: await object.text(),",
    "  \x7d;",
    "\x7d",
    "",
    "/** Store a value. Files and blobs are stored as-is, objects as JSON. */",
    "export async function put(env, name, key, value, contentType) \x7b",
    "  let body = value;",
    "  let type = contentType;",
    "  if (typeof Blob !== 'undefined' && value instanceof Blob) \x7b",
    "    type = type || value.type || undefined;",
    "  \x7d else if (typeof value !== 'string' && !(value instanceof ArrayBuffer)) \x7b",
    "    body = JSON.stringify(value);",
    "    type = type || 'application/json';",
    "  \x7d",
    "  const options = type ? \x7b httpMetadata: \x7b contentType: type \x7d \x7d : undefined;",
    "  const object = await bucket(env, name).put(key, body, options);",
    "  return \x7b key, size: object.size, etag: object.etag \x7d;",
    "\x7d",
    "",
    "export async function remove(env, name, key) \x7b",
    "  await bucket(env, name).delete(key);",
    "  return \x7b key \x7d;",
    "\x7d",
    ""]

/-- The line of a bucket. -/
def bucketLine (b : R2Bucket) : String := pairLine b.binding b.toJson "bucket_name"

/-- The file for buckets. -/
def buckets (m : Manifest) : String :=
  ofLines (bucketsHead ++ m.r2Buckets.map bucketLine ++ ["\x7d);"] ++ bucketsBody)

end WorkerGen.Worker
