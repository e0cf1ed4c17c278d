import WorkerGen.Api.Description

/-!
# API descriptions as JSON

The JSON form of a description and of its parts.  Optional texts and lists that are absent have no
member, while an absent body of a response and the absent parameters of a step are null.

The members of an object stand in the order of the fields, and paths and methods in their own.
-/

namespace WorkerGen

/-- A step as JSON. -/
def StepEntry.toJson (s : StepEntry) : Json :=
  .object (Json.optionalMember "binding" s.binding ++ Json.optionalMember "as" s.result ++
    s.action.members)

/-- The shape of a response as JSON. -/
def Response.toJson (r : Response) : Json :=
  .object [("status", .nat r.status.toNat), ("headers", Action.textsJson r.headers),
    ("body", r.body.getD .null)]

/-- An operation as JSON. -/
def Operation.toJson (o : Operation) : Json :=
  .object (Json.optionalMember "operationId" o.id ++ Json.optionalMember "summary" o.summary ++
    (match o.steps with
      | none => []
      | some steps => [("x-operations", .array (steps.map StepEntry.toJson))]) ++
    (match o.response with
      | none => []
      | some r => [("x-response", r.toJson)]))

/-- The information about a description as JSON. -/
def Info.toJson (i : Info) : Json :=
  .object (Json.optionalMember "title" i.title ++ Json.optionalMember "version" i.version ++
    Json.optionalMember "description" i.description)

/-- Default bindings as JSON, without the absent ones. -/
def Defaults.toJson (d : Defaults) : Json :=
  .object (Json.optionalMember "d1" d.d1 ++ Json.optionalMember "kv" d.kv ++
    Json.optionalMember "r2" d.r2)

/-- Default bindings as JSON, with null for the absent ones. -/
def Defaults.toFullJson (d : Defaults) : Json :=
  .object [("d1", .optionalString d.d1), ("kv", .optionalString d.kv),
    ("r2", .optionalString d.r2)]

/-- The operations of a path as JSON. -/
def PathItem.toJson (item : PathItem) : Json :=
  .object (item.entries.map fun (method, operation) => (method.name, operation.toJson))

/-- A description as JSON. -/
def Api.toJson (api : Api) : Json :=
  .object (Json.optionalMember "openapi" api.openapi ++
    [("info", api.info.toJson),
      ("paths", .object (api.paths.entries.map fun (path, item) => (path, PathItem.toJson item))),
      ("x-defaults", api.defaults.toJson)])

end WorkerGen
