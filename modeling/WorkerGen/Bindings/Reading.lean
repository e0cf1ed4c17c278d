import WorkerGen.Bindings.Manifest
import WorkerGen.Data.Error
import WorkerGen.Toml.Document

/-!
# Reading a bindings manifest

`Manifest.parse` reads a manifest from the text of a TOML document.  The fields of a table are read
in the order of their keys, so the first of two errors is that of the earlier key, and a missing
field is only noticed when all fields that are there have been read.  Other fields do not matter.

A binding may also be written as a list of its fields in their order.  A date counts as a table with
a single field, which holds its text.

Databases, namespaces and buckets are records of one shape: a required text, and others that may be
absent (`record`).  An error has the byte offset of what is wrong, which for a missing field is that
of the record.
-/

namespace WorkerGen

open Toml (Value Scalar)

/-- Why a text is no bindings manifest. -/
inductive ManifestError where
  /-- The text is no TOML document. -/
  | notToml
  /-- The document does not hold a manifest; the value at fault starts at an offset. -/
  | data (cause : Cause) (start : Nat)
deriving DecidableEq

namespace Manifest

/-! ## What values are found to be

An error names what a value is, with the value itself where that is short. -/

/-- The field under which a date stands for itself. -/
def dateField : String := "$__toml_private_datetime"

/-- What a whole number is found to be. -/
def foundInteger (n : Int) : Found :=
  if -(Nat.pow 2 63) ≤ n && n < Nat.pow 2 64 then .integer n
  else if n < Nat.pow 2 127 then .signed128 n
  else .unsigned128 n

/-- What a value is found to be. -/
def found : Value → Found
  | .scalar _ (.text s) => .text s
  | .scalar _ (.integer n) => foundInteger n
  | .scalar _ (.float x) => .float x
  | .scalar _ (.bool b) => .bool b
  | .scalar _ (.datetime _) | .table .. => .map
  | .array .. => .sequence

/-- The error of a value where something else is expected. -/
def mismatch {α : Type} (v : Value) (expected : String) : Except ManifestError α :=
  .error (.data (.invalidType (found v) expected) v.start)

/-- The entries of a table, or of a date. -/
def fields? : Value → Option (List (String × Value))
  | .table _ entries => some entries
  | .scalar start (.datetime d) => some [(dateField, .scalar start (.text d.text))]
  | _ => none

/-! ## Fields

A field is looked up among the entries of a table, and a list that stands for a record has its
fields by position. -/

/-- A text. -/
def text : Value → Except ManifestError String
  | .scalar _ (.text s) => .ok s
  | v => mismatch v "a string"

/-- The text of a field that may be absent. -/
def field? (entries : List (String × Value)) (name : String) :
    Except ManifestError (Option String) :=
  (entries.lookup name).mapM text

/-- The text of an item that may be absent. -/
def item? (items : List Value) (index : Nat) : Except ManifestError (Option String) :=
  items[index]?.mapM text

/-- A required text, of a record that starts at an offset. -/
def required (start : Nat) (absent : Cause) : Option String → Except ManifestError String
  | some s => .ok s
  | none => .error (.data absent start)

/-- A record as a table or as a list.  The first of its fields is required. -/
def record {α : Type} (name : String) (count : Nat)
    (ofFields : Nat → List (String × Value) → Except ManifestError α)
    (ofItems : String → List Value → Except ManifestError α) (v : Value) :
    Except ManifestError α :=
  match fields? v, v with
  | some entries, _ => ofFields v.start entries
  | none, .array start items => do
    let absent := .invalidLength 0 ("struct " ++ name ++ " with " ++ toString count ++ " elements")
    ofItems (← required start absent (← item? items 0)) items
  | none, v => mismatch v ("struct " ++ name)

/-! ## Records

A database has a name and an id besides its binding, a namespace two ids, and a bucket a name. -/

/-- A database. -/
def d1Database : Value → Except ManifestError D1Database :=
  record "D1Database" 3
    (fun start entries => do
      let binding ← field? entries "binding"
      let databaseId ← field? entries "database_id"
      let databaseName ← field? entries "database_name"
      return ⟨← required start (.missingField "binding") binding, databaseName, databaseId⟩)
    (fun binding items => do return ⟨binding, ← item? items 1, ← item? items 2⟩)

/-- A namespace. -/
def kvNamespace : Value → Except ManifestError KvNamespace :=
  record "KvNamespace" 3
    (fun start entries => do
      let binding ← field? entries "binding"
      let id ← field? entries "id"
      let previewId ← field? entries "preview_id"
      return ⟨← required start (.missingField "binding") binding, id, previewId⟩)
    (fun binding items => do return ⟨binding, ← item? items 1, ← item? items 2⟩)

/-- A bucket. -/
def r2Bucket : Value → Except ManifestError R2Bucket :=
  record "R2Bucket" 2
    (fun start entries => do
      let binding ← field? entries "binding"
      let bucketName ← field? entries "bucket_name"
      return ⟨← required start (.missingField "binding") binding, bucketName⟩)
    (fun binding items => do return ⟨binding, ← item? items 1⟩)

/-- The records of a list that may be absent. -/
def listField {α : Type} (read : Value → Except ManifestError α)
    (entries : List (String × Value)) (name : String) : Except ManifestError (List α) :=
  match entries.lookup name with
  | none => .ok []
  | some (.array _ items) => items.mapM read
  | some v => mismatch v "a sequence"

/-- A scalar as JSON.  The special numbers are null. -/
def scalarJson (start : Nat) : Scalar → Except ManifestError Json
  | .text s => .ok (.string s)
  | .integer n =>
    if Json.intInRange n then .ok (.int n) else .error (.data .numberOutOfRange start)
  | .float (.finite x) => .ok (.number (.float x))
  | .float _ => .ok .null
  | .bool b => .ok (.bool b)
  | .datetime d => .ok (.object [(dateField, .string d.text)])

mutual

/-- Any value as JSON. -/
def json : Value → Except ManifestError Json
  | .scalar start scalar => scalarJson start scalar
  | .array _ items => do return .array (← itemsJson items)
  | .table _ entries => do return .object (← entriesJson entries)

/-- Values as JSON. -/
def itemsJson : List Value → Except ManifestError (List Json)
  | [] => .ok []
  | v :: rest => do
    let first ← json v
    return first :: (← itemsJson rest)

/-- Entries as the members of an object. -/
def entriesJson : List (String × Value) → Except ManifestError (List (String × Json))
  | [] => .ok []
  | (name, v) :: rest => do
    let first ← json v
    return (name, first) :: (← entriesJson rest)

end

/-- The variables, which may be absent. -/
def varsField (entries : List (String × Value)) : Except ManifestError (Dictionary Json) :=
  match entries.lookup "vars" with
  | none => .ok .empty
  | some v =>
    match fields? v with
    | some vars => do return .ofList (← entriesJson vars)
    | none => mismatch v "a map"

/-! ## Documents

The manifest takes its fields from the root table. -/

/-- The manifest that the entries of a document hold. -/
def ofEntries (entries : List (String × Value)) : Except ManifestError Manifest := do
  let compatibilityDate ← field? entries "compatibility_date"
  let d1Databases ← listField d1Database entries "d1_databases"
  let kvNamespaces ← listField kvNamespace entries "kv_namespaces"
  let main ← field? entries "main"
  let name ← field? entries "name"
  let r2Buckets ← listField r2Bucket entries "r2_buckets"
  let vars ← varsField entries
  return { name, main, compatibilityDate, d1Databases, kvNamespaces, r2Buckets, vars }

/-- Reads a manifest. -/
def parse (text : String) : Except ManifestError Manifest :=
  match Toml.Document.parse? text with
  | none => .error .notToml
  | some document => ofEntries ((fields? document).getD [])

end Manifest

end WorkerGen
