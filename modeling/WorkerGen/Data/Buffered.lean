import WorkerGen.Data.Cursor
import WorkerGen.Dictionary

/-!
# Buffered values

The parameters of a step are read before it is known which action they belong to.  They are kept as
buffered values, which know what their scalars mean, and are read again as the action asks.  So a
parameter that has to be a text must mean a text: `url: 1` is refused, where the same scalar would
do for a field that is read directly.

Errors in the second reading have no place of their own.
-/

namespace WorkerGen

/-- A value that has been read without knowing what it is for. -/
inductive Buffered where
  | null
  | bool (value : Bool)
  | natural (value : Nat)
  | negative (value : Int)
  | float (value : FloatValue)
  | text (value : String)
  | sequence (items : List Buffered)
  | map (entries : List (Buffered × Buffered))
deriving Inhabited

namespace Buffered

open Yaml (Node Meaning)

/-- The buffered form of a scalar; numbers of more than 64 bits have none. -/
def ofMeaning : Meaning → Except Cause Buffered
  | .null => .ok .null
  | .bool b => .ok (.bool b)
  | .natural n => .ok (.natural n)
  | .negative n => .ok (.negative n)
  | .wideNatural n => .error (.invalidType (.unsigned128 n) "any value")
  | .wideNegative n => .error (.invalidType (.signed128 n) "any value")
  | .float x => .ok (.float x)
  | .text s => .ok (.text s)

/-- Reads the entries of a mapping, keys and values alike. -/
def readPairs (path : DataPath) (depth : Nat) (read : Cursor → Reader Buffered) :
    List (Node × Node) → Reader (List (Buffered × Buffered))
  | [] => return []
  | (key, value) :: rest => do
    let k ← read ⟨key, path, depth⟩
    let v ← read ⟨value, Cursor.valuePath path key, depth⟩
    return (k, v) :: (← readPairs path depth read rest)

/-- Buffers a value inside `depth` collections. -/
def readWithin : (depth : Nat) → Cursor → Reader Buffered
  | depth, c => do
    let c ← c.resolve
    c.placing do
      if Cursor.isCustom c.node then failWith .taggedParameter
      else match c.node with
        | .scalar _ tag style written =>
          Cursor.orFail ((Cursor.scalarMeaning tag style written).bind ofMeaning)
        | .alias .. => return .null
        | .sequence start _ nodes =>
          match depth with
          | 0 => throw (.tooDeep start)
          | depth + 1 =>
            return .sequence (← Cursor.readItems c.path depth (readWithin depth) 0 nodes)
        | .mapping start _ nodes =>
          match depth with
          | 0 => throw (.tooDeep start)
          | depth + 1 => return .map (← readPairs c.path depth (readWithin depth) nodes)

/-- Buffers a value. -/
def read (c : Cursor) : Reader Buffered := readWithin c.depth c

/-! ## Reading again

What can be asked of a buffered value: a text, one of several names, a number, a dictionary of
texts, or any value as JSON. -/

/-- What a message says a buffered value is. -/
def found : Buffered → Found
  | .null => .unit
  | .bool b => .bool b
  | .natural n => .integer n
  | .negative n => .integer n
  | .float x => .float x
  | .text s => .text s
  | .sequence _ => .sequence
  | .map _ => .map

/-- A text. -/
def toText (expected : String) : Buffered → Except Cause String
  | .text s => .ok s
  | b => .error (.invalidType b.found expected)

/-- A natural number of at most 64 bits. -/
def toWord64 : Buffered → Except Cause UInt64
  | .natural n => .ok n.toUInt64
  | .negative n =>
    if n < 0 then .error (.invalidValue (.integer n) "u64") else .ok n.toNat.toUInt64
  | b => .error (.invalidType b.found "u64")

/-- A value that may be null. -/
def toOptional {α : Type} (read : Buffered → Except Cause α) : Buffered → Except Cause (Option α)
  | .null => .ok none
  | b => (read b).map some

mutual

/-- Any value as JSON.  The keys of a mapping have to be texts. -/
def toJson : Buffered → Except Cause Json
  | .null => .ok .null
  | .bool b => .ok (.bool b)
  | .natural n => .ok (.nat n)
  | .negative n => .ok (.int n)
  | .float (.finite x) => .ok (.number (.float x))
  | .float (.infinite _) => .ok .null
  | .float .nan => .ok .null
  | .text s => .ok (.string s)
  | .sequence items => (toJsonItems items).map .array
  | .map entries => (toJsonMembers [] entries).map .object

/-- The items of an array. -/
def toJsonItems : List Buffered → Except Cause (List Json)
  | [] => .ok []
  | b :: rest => do
    let v ← toJson b
    return v :: (← toJsonItems rest)

/-- The members of an object, added to those so far. -/
def toJsonMembers (members : List (String × Json)) :
    List (Buffered × Buffered) → Except Cause (List (String × Json))
  | [] => .ok members
  | (key, value) :: rest => do
    let name ← key.toText (if members.isEmpty then "a string key" else "a string")
    let json ← toJson value
    toJsonMembers (setEntry name json members) rest

end

/-- A sequence of JSON values. -/
def toJsonList : Buffered → Except Cause (List Json)
  | .sequence items => toJsonItems items
  | b => .error (.invalidType b.found "a sequence")

/-- A mapping of texts to texts. -/
def toTexts : Buffered → Except Cause (Dictionary String)
  | .map entries => entries.foldlM (fun d (key, value) => do
      let name ← key.toText "a string"
      let text ← value.toText "a string"
      return d.insert name text) .empty
  | b => .error (.invalidType b.found "a map")

/-- The index among `names` of a name, or of a number that is an index itself. -/
def toVariant (names : List String) : Buffered → Except Cause Nat
  | .text s =>
    match names.findIdx? (· == s) with
    | some index => .ok index
    | none => .error (.unknownVariant s names)
  | .natural n =>
    if n < names.length then .ok n
    else .error (.invalidValue (.integer n)
      ("variant index 0 <= i < " ++ toString names.length))
  | b => .error (.invalidType b.found "variant identifier")

/-- One of several words: the word itself, or the single key of a mapping to nothing, which is
null or an empty mapping. -/
def toWord (names : List String) : Buffered → Except Cause Nat
  | .text s => toVariant names (.text s)
  | .map [(key, value)] => do
    let index ← toVariant names key
    match value with
    | .null | .map [] => return index
    | b => throw (.invalidType b.found "unit")
  | .map _ => .error (.invalidValue .map "map with a single key")
  | b => .error (.invalidType b.found "string or map")

end Buffered

end WorkerGen
