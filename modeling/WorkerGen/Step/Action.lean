import WorkerGen.Dictionary
import WorkerGen.Json.Value
import WorkerGen.Resource

/-!
# Actions

What one step of an operation does, with the parameters it needs.  Parameters may hold placeholders
for values of the request; these are resolved when the request is served, and here they are texts
like any other.
-/

namespace WorkerGen

/-- What is asked of a database. -/
inductive SqlVerb where
  /-- All rows. -/
  | query
  /-- The first row, or null. -/
  | first
  /-- What the statement has changed. -/
  | run
deriving DecidableEq, Inhabited, Repr

/-- How a stored value is decoded. -/
inductive ValueFormat where
  | text
  | json
deriving DecidableEq, Inhabited, Repr

/-- The word for a format. -/
def ValueFormat.name : ValueFormat → String
  | .text => "text"
  | .json => "json"

/-- An action of a step. -/
inductive Action where
  | sql (verb : SqlVerb) (statement : String) (arguments : List Json)
  | kvGet (key : String) (format : ValueFormat)
  /-- Stores a value, which may expire after a number of seconds. -/
  | kvPut (key : String) (value : Json) (lifetime : Option UInt64)
  | kvDelete (key : String)
  | r2Get (key : String)
  | r2Put (key : String) (value : Json) (contentType : Option String)
  | r2Delete (key : String)
  /-- A request to another server. -/
  | fetch (url method : String) (headers : Dictionary String) (body : Option Json)
deriving DecidableEq

namespace Action

/-- The class of resources that an action needs a binding for, if any. -/
def resource? : Action → Option Resource
  | .sql .. => some .d1
  | .kvGet .. | .kvPut .. | .kvDelete .. => some .kv
  | .r2Get .. | .r2Put .. | .r2Delete .. => some .r2
  | .fetch .. => none

/-- The name of an action. -/
def name : Action → String
  | .sql .query .. => "d1.query"
  | .sql .first .. => "d1.first"
  | .sql .run .. => "d1.run"
  | .kvGet .. => "kv.get"
  | .kvPut .. => "kv.put"
  | .kvDelete .. => "kv.delete"
  | .r2Get .. => "r2.get"
  | .r2Put .. => "r2.put"
  | .r2Delete .. => "r2.delete"
  | .fetch .. => "fetch"

/-- The method of a request that names none. -/
def defaultMethod : String := "GET"

/-- A dictionary of texts as an object. -/
def textsJson (d : Dictionary String) : Json :=
  .object (d.entries.map fun (k, v) => (k, .string v))

/-! ## As members

The form in which an action is written as JSON, and in which it stands in a description. -/

/-- The parameters of an action as the members of an object, after the action's name.  Absent ones
are null. -/
def members (action : Action) : List (String × Json) :=
  ("action", .string action.name) ::
    match action with
    | .sql _ statement arguments => [("sql", .string statement), ("params", .array arguments)]
    | .kvGet key format => [("key", .string key), ("type", .string format.name)]
    | .kvPut key value lifetime =>
      [("key", .string key), ("value", value),
        ("ttl", (lifetime.map fun n => Json.nat n.toNat).getD .null)]
    | .kvDelete key | .r2Get key | .r2Delete key => [("key", .string key)]
    | .r2Put key value contentType =>
      [("key", .string key), ("value", value), ("content_type", .optionalString contentType)]
    | .fetch url method headers body =>
      [("url", .string url), ("method", .string method), ("headers", textsJson headers),
        ("body", body.getD .null)]

end Action

end WorkerGen
