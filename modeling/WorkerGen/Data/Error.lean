import WorkerGen.Number.Shortest
import WorkerGen.Text.Quoted
import WorkerGen.Yaml.Plain

/-!
# Errors in the data of a document

A document that is well formed may still not have the data that is asked for.  Such an error has a
cause, whose wording is `Cause.message`, and a place: the path from the root of the document to the
value at fault, and the byte offset where that value starts.

An error is raised without a place and gets the place of the innermost value that was being read,
by `DataError.placedAt`.
-/

namespace WorkerGen

/-- What was found where something else was expected. -/
inductive Found where
  | bool (value : Bool)
  | integer (value : Int)
  /-- A whole number that takes 128 bits with a sign. -/
  | signed128 (value : Int)
  /-- A natural number that takes 128 bits without a sign. -/
  | unsigned128 (value : Int)
  | float (value : FloatValue)
  | text (value : String)
  | unit
  | sequence
  | map
  | enumeration
deriving DecidableEq

/-- What a scalar with a meaning is found to be. -/
def Found.ofMeaning : Yaml.Meaning → Found
  | .null => .unit
  | .bool b => .bool b
  | .natural n => .integer n
  | .negative n => .integer n
  | .wideNatural n => .unsigned128 n
  | .wideNegative n => .signed128 n
  | .float x => .float x
  | .text s => .text s

/-- A number with a fraction as messages show it: all its digits, and at least one behind the
point. -/
def floatWord : FloatValue → String
  | .finite x => String.ofList (x.text .plain)
  | .infinite true => "-inf"
  | .infinite false => "inf"
  | .nan => "NaN"

/-- A text between grave accents, as messages mark names and numbers. -/
def marked (s : String) : String := "\x60" ++ s ++ "\x60"

/-- How a message names what was found. -/
def Found.words : Found → String
  | .bool b => "boolean " ++ marked (if b then "true" else "false")
  | .integer n => "integer " ++ marked (toString n)
  | .unsigned128 n => "integer " ++ marked (toString n) ++ " as u128"
  | .signed128 n => "integer " ++ marked (toString n) ++ " as i128"
  | .float x => "floating point " ++ marked (floatWord x)
  | .text s => "string " ++ Text.quoted s
  | .unit => "unit value"
  | .sequence => "sequence"
  | .map => "map"
  | .enumeration => "enum"

/-- Why the data of a document is not what is asked for. -/
inductive Cause where
  | invalidType (found : Found) (expected : String)
  | invalidValue (found : Found) (expected : String)
  | invalidLength (length : Nat) (expected : String)
  | missingField (name : String)
  | duplicateField (name : String)
  | unknownVariant (name : String) (known : List String)
  /-- A whole number that JSON numbers do not reach. -/
  | numberOutOfRange
  /-- A tag of an application on a parameter of a step. -/
  | taggedParameter
  /-- A path that declares a method twice. -/
  | repeatedMethod (method : String)
deriving DecidableEq

/-- A list of names in a message: one alone, two with `or`, more behind `one of`. -/
def alternatives : List String → String
  | [] => "there are no variants"
  | [a] => marked a
  | [a, b] => marked a ++ " or " ++ marked b
  | names => "one of " ++ ", ".intercalate (names.map marked)

/-- The wording of a cause. -/
def Cause.message : Cause → String
  | .invalidType found expected => "invalid type: " ++ found.words ++ ", expected " ++ expected
  | .invalidValue found expected => "invalid value: " ++ found.words ++ ", expected " ++ expected
  | .invalidLength n expected => "invalid length " ++ toString n ++ ", expected " ++ expected
  | .missingField name => "missing field " ++ marked name
  | .duplicateField name => "duplicate field " ++ marked name
  | .unknownVariant name known =>
    "unknown variant " ++ marked name ++ ", expected " ++ alternatives known
  | .numberOutOfRange => "JSON number out of range"
  | .taggedParameter => "untagged and internally tagged enums do not support enum input"
  | .repeatedMethod method => "method '" ++ method ++ "' is declared more than once"

/-! ## Places -/

/-- The way from the root of a document to a value. -/
inductive DataPath where
  | root
  | key (parent : DataPath) (name : String)
  | item (parent : DataPath) (index : Nat)
  /-- A value under a key that is no scalar. -/
  | unnamed (parent : DataPath)
deriving DecidableEq, Inhabited

/-- A path in a message; the root has none. -/
def DataPath.text? : DataPath → Option String
  | .root => none
  | .key parent name => some ((parent.text?.map (· ++ ".")).getD "" ++ name)
  | .item parent index => some (parent.text?.getD "." ++ "[" ++ toString index ++ "]")
  | .unnamed parent => some ((parent.text?.map (· ++ ".")).getD "" ++ "?")

/-- Where in a document a value stands. -/
structure DataPlace where
  path : DataPath
  offset : Nat
deriving DecidableEq

/-- An error in the data of a document. -/
inductive DataError where
  | fault (cause : Cause) (place : Option DataPlace)
  /-- Collections in one another beyond the limit; the offset is that of the first too deep. -/
  | tooDeep (offset : Nat)
  /-- Aliases that have been followed too often. -/
  | tooManyAliases
deriving DecidableEq

namespace DataError

/-- Gives an error that has none a place. -/
def placedAt (place : DataPlace) : DataError → DataError
  | .fault cause none => .fault cause (some place)
  | e => e

/-- The wording of an error: the path, where it is not the root, and the cause. -/
def message : DataError → String
  | .fault cause place =>
    match place.bind (·.path.text?) with
    | none => cause.message
    | some path => path ++ ": " ++ cause.message
  | .tooDeep _ => "recursion limit exceeded"
  | .tooManyAliases => "repetition limit exceeded"

/-- The byte offset where an error stands, if it has a place. -/
def offset? : DataError → Option Nat
  | .fault _ place => place.map (·.offset)
  | .tooDeep offset => some offset
  | .tooManyAliases => none

end DataError

end WorkerGen
