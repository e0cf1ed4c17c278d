import WorkerGen.Number.Binary64

/-!
# JSON values

The values that an API description may carry without a type of its own: statement arguments,
stored values, request and response bodies.  Numbers are whole numbers or finite binary64 numbers,
which are different values even where they are equal as numbers, because they are written
differently.  The members of an object keep the order in which they were first written.
-/

namespace WorkerGen

/-- A number of a JSON value. -/
inductive JsonNumber where
  | int (value : Int)
  | float (value : Binary64)
deriving DecidableEq, Inhabited

/-- A JSON value. -/
inductive Json where
  | null
  | bool (value : Bool)
  | number (value : JsonNumber)
  | string (value : String)
  | array (items : List Json)
  | object (members : List (String × Json))
deriving Inhabited

namespace Json

/-- A whole number as a JSON value. -/
def int (n : Int) : Json := .number (.int n)

/-- A natural number as a JSON value. -/
def nat (n : Nat) : Json := .number (.int n)

/-- An optional text, `null` when absent. -/
def optionalString : Option String → Json
  | none => .null
  | some s => .string s

/-- The members for an optional text: none when it is absent. -/
def optionalMember (key : String) : Option String → List (String × Json)
  | none => []
  | some s => [(key, .string s)]

/-- Whether a whole number can be a JSON number: those of 64 bits, with or without a sign. -/
def intInRange (n : Int) : Bool := -(Nat.pow 2 63) ≤ n && n < Nat.pow 2 64

/-! ## Equality -/

mutual

/-- Decides equality of values. -/
def decEq : (a b : Json) → Decidable (a = b)
  | .null, .null => isTrue rfl
  | .bool a, .bool b => decidable_of_iff (a = b) (by simp)
  | .number a, .number b => decidable_of_iff (a = b) (by simp)
  | .string a, .string b => decidable_of_iff (a = b) (by simp)
  | .array a, .array b => @decidable_of_iff _ (a = b) (by simp) (decEqItems a b)
  | .object a, .object b => @decidable_of_iff _ (a = b) (by simp) (decEqMembers a b)
  | .null, .bool _ | .null, .number _ | .null, .string _ | .null, .array _ | .null, .object _
  | .bool _, .null | .bool _, .number _ | .bool _, .string _ | .bool _, .array _
  | .bool _, .object _ | .number _, .null | .number _, .bool _ | .number _, .string _
  | .number _, .array _ | .number _, .object _ | .string _, .null | .string _, .bool _
  | .string _, .number _ | .string _, .array _ | .string _, .object _ | .array _, .null
  | .array _, .bool _ | .array _, .number _ | .array _, .string _ | .array _, .object _
  | .object _, .null | .object _, .bool _ | .object _, .number _ | .object _, .string _
  | .object _, .array _ => isFalse (by simp)

/-- Decides equality of the items of two arrays. -/
def decEqItems : (a b : List Json) → Decidable (a = b)
  | [], [] => isTrue rfl
  | [], _ :: _ => isFalse (by simp)
  | _ :: _, [] => isFalse (by simp)
  | a :: as, b :: bs =>
    match decEq a b, decEqItems as bs with
    | isTrue h, isTrue hs => isTrue (by simp [h, hs])
    | isFalse h, _ => isFalse (by simp [h])
    | _, isFalse hs => isFalse (by simp [hs])

/-- Decides equality of the members of two objects. -/
def decEqMembers : (a b : List (String × Json)) → Decidable (a = b)
  | [], [] => isTrue rfl
  | [], _ :: _ => isFalse (by simp)
  | _ :: _, [] => isFalse (by simp)
  | (k, a) :: as, (l, b) :: bs =>
    match (inferInstance : Decidable (k = l)), decEq a b, decEqMembers as bs with
    | isTrue hk, isTrue h, isTrue hs => isTrue (by simp [hk, h, hs])
    | isFalse hk, _, _ => isFalse (by simp [hk])
    | _, isFalse h, _ => isFalse (by simp [h])
    | _, _, isFalse hs => isFalse (by simp [hs])

end

instance : DecidableEq Json := decEq

end Json

end WorkerGen
