/-!
# Resources

The classes of resources that the steps of an operation act on, with the word that names a class in
an API description and the table that declares its bindings in the manifest.
-/

namespace WorkerGen

/-- A class of resources. -/
inductive Resource where
  /-- A D1 database. -/
  | d1
  /-- A KV namespace. -/
  | kv
  /-- An R2 bucket. -/
  | r2
deriving DecidableEq, Inhabited, Repr

namespace Resource

/-- All classes, in the order in which they are reported. -/
def all : List Resource := [.d1, .kv, .r2]

/-- The word for a class in an API description. -/
def name : Resource → String
  | .d1 => "d1"
  | .kv => "kv"
  | .r2 => "r2"

/-- The table of the manifest that declares bindings of a class. -/
def table : Resource → String
  | .d1 => "d1_databases"
  | .kv => "kv_namespaces"
  | .r2 => "r2_buckets"

end Resource

end WorkerGen
