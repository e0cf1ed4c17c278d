import WorkerGen.Data.Error
import WorkerGen.Json.Value
import WorkerGen.Listing
import WorkerGen.Yaml.Node

/-!
# Reading data from a document

A `Cursor` is a node of a document together with the way that led to it, and the readers of this
module answer what a node holds: a text, an optional value, the items of a sequence, the entries of
a mapping, or any value at all.

* Aliases are followed where a value is read.  Following them is counted over the whole document and
  refused beyond a hundred times its size, so that nested aliases cannot make it explode.
* Collections may stand in one another to a depth of 128, aliases included.
* An empty plain scalar counts as an empty sequence or mapping where one is asked for.
* The tag of a node matters only where any value is asked for.
-/

namespace WorkerGen

open Yaml (Node Meaning Tag)

/-- What following an alias needs: the nodes that aliases refer to, and how often they may be
followed. -/
structure Anchors where
  nodes : List (Nat × Node)
  limit : Nat

/-- A step of reading data.  The state counts the aliases followed so far. -/
abbrev Reader := ReaderT Anchors (StateT Nat (Except DataError))

/-- An error without a place. -/
def failWith {α : Type} (cause : Cause) : Reader α := throw (.fault cause none)

/-- A node, the way to it, and how many collections may still be entered. -/
structure Cursor where
  node : Node
  path : DataPath
  depth : Nat

namespace Cursor

/-- How many collections may stand in one another. -/
def depthLimit : Nat := 128

/-- Where a cursor stands. -/
def place (c : Cursor) : DataPlace := ⟨c.path, c.node.start⟩

/-- Reads with errors placed at the cursor, unless they have a place. -/
def placing {α : Type} (c : Cursor) (read : Reader α) : Reader α :=
  tryCatch read fun e => throw (e.placedAt c.place)

/-- The cursor behind an alias. -/
def resolve (c : Cursor) : Reader Cursor := do
  match c.node with
  | .alias _ target =>
    let anchors ← read
    let count ← get
    set (count + 1)
    if anchors.limit < count + 1 then throw .tooManyAliases
    return { c with node := (anchors.nodes.lookup target).getD c.node }
  | _ => return c

/-- How many collections may be entered inside the one at the cursor. -/
def enter (c : Cursor) : Reader Nat :=
  match c.depth with
  | 0 => throw (.tooDeep c.node.start)
  | depth + 1 => return depth

/-! ## Scalars -/

/-- The meaning of a scalar with the given tag and style. -/
def scalarMeaning (tag : Option Tag) (style : Yaml.Style) (text : String) : Except Cause Meaning :=
  let s := text.toList
  let check (meaning : Option Meaning) (expected : String) : Except Cause Meaning :=
    match meaning with
    | some meaning => .ok meaning
    | none => .error (.invalidValue (.text text) expected)
  match tag with
  | some .bool => check ((Meaning.boolOf? s).map .bool) "a boolean"
  | some .int => check (Meaning.integer? s) "an integer"
  | some .float => check ((Meaning.float? s).map .float) "a float"
  | some .null => check (if Meaning.isNullWord s then some .null else none) "null"
  | some .other => .ok (.text text)
  | _ => .ok (if style = .plain then Meaning.ofPlain text else .text text)

/-- The error of a node where something else is expected. -/
def mismatch (node : Node) (expected : String) : Cause :=
  match node with
  | .scalar _ tag style text =>
    match scalarMeaning tag style text with
    | .ok meaning => .invalidType (.ofMeaning meaning) expected
    | .error cause => cause
  | .sequence .. => .invalidType .sequence expected
  | .mapping .. => .invalidType .map expected
  | .alias .. => .invalidType .unit expected

/-- The text of a scalar, whatever it means. -/
def text (expected : String) (c : Cursor) : Reader String := do
  let c ← c.resolve
  c.placing do
    match c.node with
    | .scalar _ _ _ text => return text
    | node => failWith (mismatch node expected)

/-- A number of at most 16 bits.  It is written plainly or, with its tag, as a block. -/
def word16 (c : Cursor) : Reader UInt16 := do
  let c ← c.resolve
  c.placing do
    match c.node with
    | .scalar _ tag style text =>
      if style = .plain || (style = .literal && tag = some .int) then
        match Meaning.natural? text.toList with
        | some n =>
          if n < Nat.pow 2 16 then return n.toUInt16
          else if n < Nat.pow 2 64 then failWith (.invalidValue (.integer n) "u16")
          else failWith (mismatch c.node "u16")
        | none => failWith (mismatch c.node "u16")
      else failWith (mismatch c.node "u16")
    | node => failWith (mismatch node "u16")

/-- A value that may be null. -/
def optional {α : Type} (read : Cursor → Reader α) (c : Cursor) : Reader (Option α) := do
  let c ← c.resolve
  match c.node with
  | .scalar _ tag .plain text =>
    match tag with
    | some .null =>
      if Meaning.isNullWord text.toList then return none
      else failWith (.invalidValue (.text text) "null")
    | some _ => return some (← read c)
    | none =>
      if text.isEmpty || Meaning.isNullWord text.toList then return none
      else return some (← read c)
  | _ => return some (← read c)

/-! ## Collections

What is inside of a collection is read with one less of the depth, and with its own place. -/

/-- Reads the items of a sequence, from index `index` on. -/
def readItems {α : Type} (path : DataPath) (depth : Nat) (read : Cursor → Reader α) :
    (index : Nat) → List Node → Reader (List α)
  | _, [] => return []
  | index, node :: rest => do
    let value ← read ⟨node, .item path index, depth⟩
    return value :: (← readItems path depth read (index + 1) rest)

/-- The items of a sequence. -/
def items {α : Type} (read : Cursor → Reader α) (c : Cursor) : Reader (List α) := do
  let c ← c.resolve
  c.placing do
    match c.node with
    | .sequence _ _ nodes => do
      let depth ← c.enter
      readItems c.path depth read 0 nodes
    | .scalar _ _ .plain "" => return []
    | node => failWith (mismatch node "a sequence")

/-- The path of the value under a key. -/
def valuePath (path : DataPath) : Node → DataPath
  | .scalar _ _ _ text => .key path text
  | _ => .unnamed path

/-- Reads the entries of a mapping in order, each into the result so far. -/
def readEntries {σ : Type} (path : DataPath) (depth : Nat) (keyExpected : String)
    (step : σ → String → Cursor → Reader σ) : σ → List (Node × Node) → Reader σ
  | result, [] => return result
  | result, (key, value) :: rest => do
    let name ← text keyExpected ⟨key, path, depth⟩
    let result ← step result name ⟨value, valuePath path key, depth⟩
    readEntries path depth keyExpected step result rest

/-- The entries of a mapping, each read into the result so far, and what is made of the result in
the end. -/
def entries {σ α : Type} (expected keyExpected : String) (init : σ)
    (step : σ → String → Cursor → Reader σ) (finish : σ → Reader α) (c : Cursor) :
    Reader α := do
  let c ← c.resolve
  c.placing do
    match c.node with
    | .mapping _ _ nodes => do
      let depth ← c.enter
      finish (← readEntries c.path depth keyExpected step init nodes)
    | .scalar _ _ .plain "" => finish init
    | node => failWith (mismatch node expected)

/-- The entries of a mapping with the fields of a record.  A field is read by `field`, which gets
the record so far; other keys do not matter. -/
def record {σ α : Type} (name : String) (init : σ) (field : σ → String → Cursor → Reader σ)
    (finish : σ → Reader α) : Cursor → Reader α :=
  entries ("struct " ++ name) "field identifier" init field finish

/-! ## Any value -/

/-- Whether a node has a tag of an application. -/
def isCustom : Node → Bool
  | .scalar _ tag .. | .sequence _ tag _ | .mapping _ tag _ => tag == some .custom
  | .alias .. => false

/-- The JSON value that a scalar means.  The special numbers are null. -/
def meaningJson : Meaning → Except Cause Json
  | .null => .ok .null
  | .bool b => .ok (.bool b)
  | .natural n => .ok (.nat n)
  | .negative n => .ok (.int n)
  | .wideNatural _ | .wideNegative _ => .error .numberOutOfRange
  | .float (.finite x) => .ok (.number (.float x))
  | .float _ => .ok .null
  | .text s => .ok (.string s)

/-- Lifts a cause into a step of reading. -/
def orFail {α : Type} : Except Cause α → Reader α
  | .ok a => return a
  | .error cause => failWith cause

/-- Reads the members of an object.  Keys are texts, whatever they mean. -/
def readMembers (path : DataPath) (depth : Nat) (read : Cursor → Reader Json) :
    List (String × Json) → List (Node × Node) → Reader (List (String × Json))
  | members, [] => return members
  | members, (key, value) :: rest => do
    let expected := if members.isEmpty then "a string key" else "a string"
    let name ← text expected ⟨key, path, depth⟩
    let json ← read ⟨value, valuePath path key, depth⟩
    readMembers path depth read (setEntry name json members) rest

/-- Any value as JSON, inside `depth` collections. -/
def jsonWithin : (depth : Nat) → Cursor → Reader Json
  | depth, c => do
    let c ← c.resolve
    c.placing do
      if isCustom c.node then failWith (.invalidType .enumeration "any valid JSON value")
      else match c.node with
        | .scalar _ tag style text => orFail ((scalarMeaning tag style text).bind meaningJson)
        | .alias .. => return .null
        | .sequence start _ nodes =>
          match depth with
          | 0 => throw (.tooDeep start)
          | depth + 1 => return .array (← readItems c.path depth (jsonWithin depth) 0 nodes)
        | .mapping start _ nodes =>
          match depth with
          | 0 => throw (.tooDeep start)
          | depth + 1 => return .object (← readMembers c.path depth (jsonWithin depth) [] nodes)

/-- Any value as JSON. -/
def json (c : Cursor) : Reader Json := jsonWithin c.depth c

end Cursor

/-- Reads a document: an empty one gives `default`. -/
def Yaml.Document.read {α : Type} (d : Yaml.Document) (default : α)
    (reader : Cursor → Reader α) : Except DataError α :=
  match d.root with
  | none => .ok default
  | some root =>
    ((reader ⟨root, .root, Cursor.depthLimit⟩).run ⟨d.anchored, d.weight * 100⟩).run' 0

end WorkerGen
