import WorkerGen.Api.Description
import WorkerGen.Data.Format
import WorkerGen.Json.Text
import WorkerGen.Yaml.Node.Parser

/-!
# Reading API descriptions

From the text of a document to its description, and back from its JSON form.  The records of a
description are read in the same way from any format of data (`Format.api`); a document and a JSON
value differ in what they offer for texts, mappings and the like, and in nothing else.

Fields that are not known are skipped with all they hold; a known field that comes twice is an
error.  Every field may be left out but the action of a step.  Under a path every key that names a
method in any case is an operation.  A path that comes twice keeps its first place and gets the
later operations.

The parameters of a step are buffered until its action is known, so that they are read as the action
asks.  They stand beside the fields of the step, so that a step has no fields by position.
-/

namespace WorkerGen

/-! ## Parameters

A step has its parameters in any order.  Each action has a reader that goes through all of them and
takes those that are its own; the others do not matter to it. -/

/-- The names of the actions, by which a step says what it does. -/
def Action.names : List String :=
  ["d1.query", "d1.first", "d1.run", "kv.get", "kv.put", "kv.delete", "r2.get", "r2.put",
    "r2.delete", "fetch"]

/-- The buffered parameters of a step, in the order written. -/
abbrev Parameters := List (String × Buffered)

namespace Parameters

/-- The only value of a parameter, read.  A second one is an error, even after an error-free
first. -/
def field {α : Type} (name : String) (read : Buffered → Except Cause α) :
    Option α → Buffered → Except Cause (Option α)
  | some _, _ => .error (.duplicateField name)
  | none, b => (read b).map some

/-- A parameter that has to be there. -/
def require {α : Type} (name : String) : Option α → Except Cause α
  | some a => .ok a
  | none => .error (.missingField name)

/-- A text parameter. -/
def text : Buffered → Except Cause String := Buffered.toText "a string"

/-- The parameters of a statement. -/
def sql (verb : SqlVerb) (ps : Parameters) : Except Cause Action := do
  let (statement, arguments) ← ps.foldlM (fun (statement, arguments) (name, b) => do
    if name == "sql" then return (← field "sql" text statement b, arguments)
    else if name == "params" then
      return (statement, ← field "params" Buffered.toJsonList arguments b)
    else return (statement, arguments)) ((none, none) : Option String × Option (List Json))
  return .sql verb (← require "sql" statement) (arguments.getD [])

/-- The parameter of an action that only needs a key. -/
def key (ps : Parameters) : Except Cause String := do
  let key ← ps.foldlM (fun key (name, b) => do
    if name == "key" then field "key" text key b else return key) (none : Option String)
  require "key" key

/-- The format of a stored value. -/
def format (b : Buffered) : Except Cause ValueFormat := do
  return if (← b.toWord ["text", "json"]) = 0 then .text else .json

/-- The parameters of reading a stored value. -/
def kvGet (ps : Parameters) : Except Cause Action := do
  let (key, form) ← ps.foldlM (fun (key, form) (name, b) => do
    if name == "key" then return (← field "key" text key b, form)
    else if name == "type" then return (key, ← field "type" format form b)
    else return (key, form)) ((none, none) : Option String × Option ValueFormat)
  return .kvGet (← require "key" key) (form.getD .text)

/-- The parameters of storing a value: its key, itself, and an optional third one. -/
def stored {α : Type} (third : String) (read : Buffered → Except Cause α) (ps : Parameters) :
    Except Cause (String × Json × Option α) := do
  let (key, value, extra) ← ps.foldlM (fun (key, value, extra) (name, b) => do
    if name == "key" then return (← field "key" text key b, value, extra)
    else if name == "value" then return (key, ← field "value" Buffered.toJson value b, extra)
    else if name == third then
      return (key, value, ← field third (Buffered.toOptional read) extra b)
    else return (key, value, extra))
    ((none, none, none) : Option String × Option Json × Option (Option α))
  return (← require "key" key, ← require "value" value, extra.getD none)

/-- What has been read of the parameters of a request. -/
structure FetchFields where
  url : Option String
  method : Option String
  headers : Option (Dictionary String)
  body : Option (Option Json)

/-- The parameters of a request to another server. -/
def fetch (ps : Parameters) : Except Cause Action := do
  let fields ← ps.foldlM (fun (f : FetchFields) (name, b) => do
    if name == "url" then return { f with url := ← field "url" text f.url b }
    else if name == "method" then return { f with method := ← field "method" text f.method b }
    else if name == "headers" then
      return { f with headers := ← field "headers" Buffered.toTexts f.headers b }
    else if name == "body" then
      return { f with body := ← field "body" (Buffered.toOptional Buffered.toJson) f.body b }
    else return f) ⟨none, none, none, none⟩
  return .fetch (← require "url" fields.url) (fields.method.getD Action.defaultMethod)
    (fields.headers.getD .empty) (fields.body.getD none)

/-- The action with the given index among the names, with its parameters. -/
def action (index : Nat) (ps : Parameters) : Except Cause Action :=
  match index with
  | 0 => sql .query ps
  | 1 => sql .first ps
  | 2 => sql .run ps
  | 3 => kvGet ps
  | 4 => do
    let (key, value, lifetime) ← stored "ttl" Buffered.toWord64 ps
    return .kvPut key value lifetime
  | 5 => do return .kvDelete (← key ps)
  | 6 => do return .r2Get (← key ps)
  | 7 => do
    let (key, value, contentType) ← stored "content_type" text ps
    return .r2Put key value contentType
  | 8 => do return .r2Delete (← key ps)
  | _ => fetch ps

/-- The index of the action that the parameters name, and the other parameters. -/
def split : Parameters → Option Nat → Except Cause (Nat × Parameters)
  | [], none => .error (.missingField "action")
  | [], some index => .ok (index, [])
  | (name, b) :: rest, index => do
    if name == "action" then
      if index.isSome then throw (.duplicateField "action")
      split rest (some (← b.toVariant Action.names))
    else
      let (index, others) ← split rest index
      return (index, (name, b) :: others)

/-- The action that the parameters describe. -/
def toAction (ps : Parameters) : Except Cause Action := do
  let (index, others) ← split ps none
  action index others

end Parameters

/-! ## Records

What has been read of a record is kept in its fields, each of them `none` until it has been read. -/

/-- What has been read of a step: its own fields, and the buffered parameters, newest first. -/
structure StepFields where
  binding : Option (Option String)
  result : Option (Option String)
  parameters : Parameters

/-- What has been read of a response. -/
structure ResponseFields where
  status : Option UInt16
  headers : Option (Dictionary String)
  body : Option (Option Json)

/-- What has been read of an operation. -/
structure OperationFields where
  id : Option (Option String)
  summary : Option (Option String)
  steps : Option (Option (List StepEntry))
  response : Option (Option Response)

/-- What has been read of the information about a description. -/
structure InfoFields where
  title : Option (Option String)
  version : Option (Option String)
  description : Option (Option String)

/-- What has been read of the default bindings. -/
structure DefaultsFields where
  d1 : Option (Option String)
  kv : Option (Option String)
  r2 : Option (Option String)

/-- What has been read of a description. -/
structure ApiFields where
  openapi : Option (Option String)
  info : Option Info
  paths : Option (Listing String PathItem)
  defaults : Option Defaults

/-- Adds an operation to those of a path, unless the path has one for its method. -/
def PathItem.add (item : PathItem) (method : Method) (operation : Operation) :
    Except Cause PathItem :=
  if item.contains method then .error (.repeatedMethod method.name)
  else .ok (item.set method operation)

namespace Format

variable {m : Type → Type} [Monad m] {σ : Type} (F : Format m σ)

/-- Reads a field that must not have been read before. -/
def readField {α : Type} (name : String) (seen : Option α) (read : m α) : m (Option α) := do
  if seen.isSome then F.orFail (.error (.duplicateField name))
  return some (← read)

/-- An optional text. -/
def optionalText : σ → m (Option String) := F.optional (F.text "a string")

/-- A text that may also be written as another value, of which the JSON text is taken.  Null is no
text. -/
def lenientText (c : σ) : m (Option String) := do
  let value ← F.optional F.json c
  return match value with
    | none => none
    | some .null => none
    | some (.string s) => some s
    | some v => some v.encode

/-- The entries of a mapping of texts to texts. -/
def texts : σ → m (Dictionary String) :=
  F.entries "a map" "a string" Dictionary.empty
    (fun d key c => do return d.insert key (← F.text "a string" c)) pure

/-- Reads a member of a step: a field of its own, or else a parameter of its action. -/
def stepField (f : StepFields) (name : String) (c : σ) : m StepFields := do
  if name == "binding" then
    return { f with binding := ← F.readField "binding" f.binding (F.optionalText c) }
  else if name == "as" then
    return { f with result := ← F.readField "as" f.result (F.optionalText c) }
  else return { f with parameters := (name, ← F.buffered c) :: f.parameters }

/-- A step of an operation. -/
def step : σ → m StepEntry :=
  F.entries "struct StepDoc" "field identifier" (⟨none, none, []⟩ : StepFields) F.stepField
    (fun f => do
      let action ← F.orFail (Parameters.toAction f.parameters.reverse)
      return ⟨f.binding.getD none, f.result.getD none, action⟩)

/-- The shape of a response. -/
def response : σ → m Response :=
  F.record "ResponseShape" ["status", "headers", "body"] (⟨none, none, none⟩ : ResponseFields)
    (fun f name c => do
      if name == "status" then
        return { f with status := ← F.readField "status" f.status (F.word16 c) }
      else if name == "headers" then
        return { f with headers := ← F.readField "headers" f.headers (F.texts c) }
      else if name == "body" then
        return { f with body := ← F.readField "body" f.body (F.optional F.json c) }
      else return f)
    (fun f => return ⟨f.status.getD Response.defaultStatus, f.headers.getD .empty,
      f.body.getD none⟩)

/-- An operation. -/
def operation : σ → m Operation :=
  F.record "OperationEntry" ["operationId", "summary", "x-operations", "x-response"]
    (⟨none, none, none, none⟩ : OperationFields)
    (fun f name c => do
      if name == "operationId" then
        return { f with id := ← F.readField "operationId" f.id (F.optionalText c) }
      else if name == "summary" then
        return { f with summary := ← F.readField "summary" f.summary (F.optionalText c) }
      else if name == "x-operations" then
        return { f with
          steps := ← F.readField "x-operations" f.steps (F.optional (F.items F.step) c) }
      else if name == "x-response" then
        return { f with
          response := ← F.readField "x-response" f.response (F.optional F.response c) }
      else return f)
    (fun f => return ⟨f.id.getD none, f.summary.getD none, f.steps.getD none,
      f.response.getD none⟩)

/-- Reads what is written under a name into the operations of a path.  Keys that name no method are
skipped, and an operation of which nothing is written is blank. -/
def addOperation (item : PathItem) (name : String) (c : σ) : m PathItem := do
  match Method.ofName? name with
  | none => return item
  | some method => do
    let operation ← F.optional F.operation c
    F.orFail (PathItem.add item method (operation.getD .blank))

/-- The operations of a path.  Null stands for no operations. -/
def pathItem : σ → m PathItem :=
  F.entriesOrNull "a path item mapping HTTP methods to operations" .empty F.addOperation

/-- The information about a description. -/
def info : σ → m Info :=
  F.record "Info" ["title", "version", "description"] (⟨none, none, none⟩ : InfoFields)
    (fun f name c => do
      if name == "title" then
        return { f with title := ← F.readField "title" f.title (F.optionalText c) }
      else if name == "version" then
        return { f with version := ← F.readField "version" f.version (F.lenientText c) }
      else if name == "description" then
        return { f with
          description := ← F.readField "description" f.description (F.optionalText c) }
      else return f)
    (fun f => return ⟨f.title.getD none, f.version.getD none, f.description.getD none⟩)

/-- The default bindings. -/
def defaults : σ → m Defaults :=
  F.record "Defaults" ["d1", "kv", "r2"] (⟨none, none, none⟩ : DefaultsFields)
    (fun f name c => do
      if name == "d1" then return { f with d1 := ← F.readField "d1" f.d1 (F.optionalText c) }
      else if name == "kv" then return { f with kv := ← F.readField "kv" f.kv (F.optionalText c) }
      else if name == "r2" then return { f with r2 := ← F.readField "r2" f.r2 (F.optionalText c) }
      else return f)
    (fun f => return ⟨f.d1.getD none, f.kv.getD none, f.r2.getD none⟩)

/-- Reads the operations of a path in place of those that the path has. -/
def setPath (paths : Listing String PathItem) (path : String) (c : σ) :
    m (Listing String PathItem) := do
  return paths.set path (← F.pathItem c)

/-- The operations under their paths. -/
def paths : σ → m (Listing String PathItem) :=
  F.entries "a map" "a string" Listing.empty F.setPath pure

/-- An API description. -/
def api : σ → m Api :=
  F.record "ApiDescription" ["openapi", "info", "paths", "x-defaults"]
    (⟨none, none, none, none⟩ : ApiFields)
    (fun f name c => do
      if name == "openapi" then
        return { f with openapi := ← F.readField "openapi" f.openapi (F.lenientText c) }
      else if name == "info" then return { f with info := ← F.readField "info" f.info (F.info c) }
      else if name == "paths" then
        return { f with paths := ← F.readField "paths" f.paths (F.paths c) }
      else if name == "x-defaults" then
        return { f with defaults := ← F.readField "x-defaults" f.defaults (F.defaults c) }
      else return f)
    (fun f => return ⟨f.openapi.getD none, f.info.getD default, f.paths.getD .empty,
      f.defaults.getD default⟩)

end Format

/-! ## Documents

The readers of a document are those of the records, at the format of documents. -/

namespace Cursor

/-- An optional text. -/
def optionalText : Cursor → Reader (Option String) := Format.document.optionalText

/-- A text that may also be written as another value. -/
def lenientText : Cursor → Reader (Option String) := Format.document.lenientText

/-- The entries of a mapping of texts to texts. -/
def texts : Cursor → Reader (Dictionary String) := Format.document.texts

/-- A step of an operation. -/
def step : Cursor → Reader StepEntry := Format.document.step

/-- The shape of a response. -/
def response : Cursor → Reader Response := Format.document.response

/-- An operation. -/
def operation : Cursor → Reader Operation := Format.document.operation

/-- Reads what is written under a name into the operations of a path. -/
def addOperation : PathItem → String → Cursor → Reader PathItem := Format.document.addOperation

/-- The operations of a path. -/
def pathItem : Cursor → Reader PathItem := Format.document.pathItem

/-- The information about a description. -/
def info : Cursor → Reader Info := Format.document.info

/-- The default bindings. -/
def defaults : Cursor → Reader Defaults := Format.document.defaults

/-- The operations under their paths. -/
def paths : Cursor → Reader (Listing String PathItem) := Format.document.paths

/-- An API description. -/
def api : Cursor → Reader Api := Format.document.api

end Cursor

/-- Why a text gives no API description. -/
inductive ApiError where
  /-- The text is no document. -/
  | notYaml (fault : Yaml.SyntaxFault)
  /-- The document has not the data of a description. -/
  | data (error : DataError)
deriving DecidableEq

namespace Api

/-- Reads a description from a document. -/
def ofDocument (d : Yaml.Document) : Except ApiError Api :=
  match d.read .empty Cursor.api with
  | .ok api => .ok api
  | .error e => .error (.data e)

/-- Reads a description from a text.  A text of white space alone is an empty description. -/
def parse (text : String) : Except ApiError Api :=
  if text.toList.all Text.isBlank then .ok .empty
  else
    match Yaml.Document.parse text with
    | .error fault => .error (.notYaml fault)
    | .ok d => ofDocument d

/-- A description from its JSON form. -/
def ofJson : Json → Except Cause Api := Format.jsonValue.api

end Api

end WorkerGen
