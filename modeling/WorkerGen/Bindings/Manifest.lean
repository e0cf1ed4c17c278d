import WorkerGen.Dictionary
import WorkerGen.Json.Value
import WorkerGen.Resource

/-!
# Bindings manifests

The manifest of a worker declares the resources that are bound to it: databases, key-value
namespaces and buckets, each under the name of its binding.  It also names the worker and carries
plain variables.  The declarations of a class keep their order, and a name may be declared twice.
-/

namespace WorkerGen

/-- A declared D1 database. -/
structure D1Database where
  binding : String
  databaseName : Option String
  databaseId : Option String
deriving DecidableEq

/-- The name under which commands address a database: its own, else that of its binding. -/
def D1Database.targetName (d : D1Database) : String := d.databaseName.getD d.binding

/-- A declared KV namespace. -/
structure KvNamespace where
  binding : String
  id : Option String
  previewId : Option String
deriving DecidableEq

/-- A declared R2 bucket. -/
structure R2Bucket where
  binding : String
  bucketName : Option String
deriving DecidableEq

/-- The name of a bucket: its own, else that of its binding. -/
def R2Bucket.targetName (b : R2Bucket) : String := b.bucketName.getD b.binding

/-- A bindings manifest. -/
structure Manifest where
  name : Option String
  main : Option String
  compatibilityDate : Option String
  d1Databases : List D1Database
  kvNamespaces : List KvNamespace
  r2Buckets : List R2Bucket
  vars : Dictionary Json
deriving DecidableEq

namespace Manifest

/-- The manifest that declares nothing. -/
def empty : Manifest := ⟨none, none, none, [], [], [], .empty⟩

instance : Inhabited Manifest := ⟨empty⟩

/-- The names declared for a class, in their order. -/
def names (m : Manifest) : Resource → List String
  | .d1 => m.d1Databases.map (·.binding)
  | .kv => m.kvNamespaces.map (·.binding)
  | .r2 => m.r2Buckets.map (·.binding)

/-- Whether a name is declared for a class. -/
def declares (m : Manifest) (resource : Resource) (name : String) : Bool :=
  (m.names resource).contains name

/-- The database that scripts are executed against: the first one declared. -/
def primaryDatabase? (m : Manifest) : Option D1Database := m.d1Databases.head?

/-- Whether no binding is declared. -/
def isEmpty (m : Manifest) : Bool :=
  m.d1Databases.isEmpty && m.kvNamespaces.isEmpty && m.r2Buckets.isEmpty

end Manifest

/-! ## As JSON -/

/-- A database as JSON. -/
def D1Database.toJson (d : D1Database) : Json :=
  .object ([("binding", .string d.binding)] ++ Json.optionalMember "database_name" d.databaseName ++
    Json.optionalMember "database_id" d.databaseId)

/-- A namespace as JSON. -/
def KvNamespace.toJson (n : KvNamespace) : Json :=
  .object ([("binding", .string n.binding)] ++ Json.optionalMember "id" n.id ++
    Json.optionalMember "preview_id" n.previewId)

/-- A bucket as JSON. -/
def R2Bucket.toJson (b : R2Bucket) : Json :=
  .object ([("binding", .string b.binding)] ++ Json.optionalMember "bucket_name" b.bucketName)

/-- A manifest as JSON. -/
def Manifest.toJson (m : Manifest) : Json :=
  .object (Json.optionalMember "name" m.name ++ Json.optionalMember "main" m.main ++
    Json.optionalMember "compatibility_date" m.compatibilityDate ++
    [("d1_databases", .array (m.d1Databases.map (·.toJson))),
      ("kv_namespaces", .array (m.kvNamespaces.map (·.toJson))),
      ("r2_buckets", .array (m.r2Buckets.map (·.toJson))),
      ("vars", .object m.vars.entries)])

end WorkerGen
