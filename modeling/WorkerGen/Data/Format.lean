import WorkerGen.Data.Buffered

/-!
# Formats of data

What is read as a record is read in the same way from a document and from a JSON value.  A `Format`
is what reading asks of either: texts, numbers, optional values, sequences, mappings and records.

JSON is the stricter one.  A text must be a text and is not another scalar as it is written, and an
empty text is no empty mapping.  A record may also be an array, which gives its fields by position.

A format has the monad that it is read in as a parameter, since reading a document counts aliases
and gives errors a place, while reading a JSON value does neither.
-/

namespace WorkerGen

/-- What a format of data offers.  Values stand at places in `σ`, and `m` says how reading may
fail. -/
structure Format (m : Type → Type) (σ : Type) where
  /-- A result, which may be a reason to fail. -/
  orFail : {α : Type} → Except Cause α → m α
  text : (expected : String) → σ → m String
  /-- A number of at most 16 bits. -/
  word16 : σ → m UInt16
  /-- Any value. -/
  json : σ → m Json
  /-- Any value, to be read again when it is known what it is for. -/
  buffered : σ → m Buffered
  /-- A value that may be null. -/
  optional : {α : Type} → (σ → m α) → σ → m (Option α)
  /-- The items of a sequence. -/
  items : {α : Type} → (σ → m α) → σ → m (List α)
  /-- The entries of a mapping, each read into the result so far, and what is made of the result in
  the end. -/
  entries : {ρ α : Type} → (expected keyExpected : String) → ρ → (ρ → String → σ → m ρ) →
    (ρ → m α) → σ → m α
  /-- The entries of a mapping that may be null. -/
  entriesOrNull : {ρ : Type} → (expected : String) → ρ → (ρ → String → σ → m ρ) → σ → m ρ
  /-- The fields of a record, with what is made of them in the end. -/
  record : {ρ α : Type} → (name : String) → (fields : List String) → ρ →
    (ρ → String → σ → m ρ) → (ρ → m α) → σ → m α

/-! ## Documents -/

/-- The entries of a mapping that may be null. -/
def Cursor.entriesOrNull {ρ : Type} (expected : String) (init : ρ)
    (step : ρ → String → Cursor → Reader ρ) (c : Cursor) : Reader ρ := do
  let c ← c.resolve
  c.placing do
    if Cursor.isCustom c.node then failWith (.invalidType .enumeration expected)
    else match c.node with
      | .scalar _ tag style text =>
        match Cursor.scalarMeaning tag style text with
        | .ok .null => return init
        | .ok meaning => failWith (.invalidType (.ofMeaning meaning) expected)
        | .error cause => failWith cause
      | .mapping _ _ nodes => do
        let depth ← c.enter
        Cursor.readEntries c.path depth "a string" step init nodes
      | node => failWith (Cursor.mismatch node expected)

/-- Documents as a format.  Records are mappings. -/
def Format.document : Format Reader Cursor where
  orFail := Cursor.orFail
  text := Cursor.text
  word16 := Cursor.word16
  json := Cursor.json
  buffered := Buffered.read
  optional := Cursor.optional
  items := Cursor.items
  entries := Cursor.entries
  entriesOrNull := Cursor.entriesOrNull
  record name _ := Cursor.record name

/-! ## JSON values -/

namespace Json

/-- What a message says a value is. -/
def found : Json → Found
  | .null => .unit
  | .bool b => .bool b
  | .number (.int n) => .integer n
  | .number (.float x) => .float (.finite x)
  | .string s => .text s
  | .array _ => .sequence
  | .object _ => .map

/-- A text. -/
def readText (expected : String) : Json → Except Cause String
  | .string s => .ok s
  | v => .error (.invalidType v.found expected)

/-- A number of at most 16 bits. -/
def readWord16 : Json → Except Cause UInt16
  | .number (.int n) =>
    if 0 ≤ n && n < Nat.pow 2 16 then .ok n.toNat.toUInt16
    else .error (.invalidValue (.integer n) "u16")
  | v => .error (.invalidType v.found "u16")

/-- A value that may be null. -/
def readOptional {α : Type} (read : Json → Except Cause α) : Json → Except Cause (Option α)
  | .null => .ok none
  | v => (read v).map some

/-- The items of an array. -/
def readItems {α : Type} (read : Json → Except Cause α) : Json → Except Cause (List α)
  | .array items => items.mapM read
  | v => .error (.invalidType v.found "a sequence")

/-- Reads named values in order, each into the result so far. -/
def readNamed {ρ : Type} (step : ρ → String → Json → Except Cause ρ) :
    ρ → List (String × Json) → Except Cause ρ
  | result, [] => .ok result
  | result, (name, value) :: rest => do readNamed step (← step result name value) rest

/-- The members of an object, each read into the result so far. -/
def readEntries {ρ α : Type} (expected : String) (init : ρ)
    (step : ρ → String → Json → Except Cause ρ) (finish : ρ → Except Cause α) :
    Json → Except Cause α
  | .object members => do finish (← readNamed step init members)
  | v => .error (.invalidType v.found expected)

/-- The members of an object that may be null. -/
def readEntriesOrNull {ρ : Type} (expected : String) (init : ρ)
    (step : ρ → String → Json → Except Cause ρ) : Json → Except Cause ρ
  | .null => .ok init
  | .object members => readNamed step init members
  | v => .error (.invalidType v.found expected)

/-- The fields of a record, by name or, from an array, by position.  An array may leave out the last
ones. -/
def readRecord {ρ α : Type} (name : String) (fields : List String) (init : ρ)
    (step : ρ → String → Json → Except Cause ρ) (finish : ρ → Except Cause α) :
    Json → Except Cause α
  | .array items => do
    let result ← finish (← readNamed step init (fields.zip items))
    if fields.length < items.length then
      throw (.invalidLength items.length "fewer elements in array")
    return result
  | v => readEntries ("struct " ++ name) init step finish v

end Json

namespace Buffered

mutual

/-- A JSON value, buffered. -/
def ofJson : Json → Buffered
  | .null => .null
  | .bool b => .bool b
  | .number (.int n) => if n < 0 then .negative n else .natural n.toNat
  | .number (.float x) => .float (.finite x)
  | .string s => .text s
  | .array items => .sequence (ofItems items)
  | .object members => .map (ofMembers members)

/-- The items of an array, buffered. -/
def ofItems : List Json → List Buffered
  | [] => []
  | v :: rest => ofJson v :: ofItems rest

/-- The members of an object, buffered. -/
def ofMembers : List (String × Json) → List (Buffered × Buffered)
  | [] => []
  | (name, v) :: rest => (.text name, ofJson v) :: ofMembers rest

end

end Buffered

/-- JSON values as a format. -/
def Format.jsonValue : Format (Except Cause) Json where
  orFail := id
  text := Json.readText
  word16 := Json.readWord16
  json := .ok
  buffered v := .ok (.ofJson v)
  optional := Json.readOptional
  items := Json.readItems
  entries expected _ := Json.readEntries expected
  entriesOrNull := Json.readEntriesOrNull
  record := Json.readRecord

end WorkerGen
