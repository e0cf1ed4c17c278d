import WorkerGen.Toml.Datetime

/-!
# TOML values

The values of a TOML document.  Each keeps the byte offset where it starts: for a table that has a
header this is the header, and for one that is only named on the way to another it is that name.
The entries of a table stand in the order of their keys.
-/

namespace WorkerGen.Toml

/-- A value without parts. -/
inductive Scalar where
  | text (value : String)
  | integer (value : Int)
  | float (value : FloatValue)
  | bool (value : Bool)
  | datetime (value : Datetime)
deriving DecidableEq

/-- A value of a document. -/
inductive Value where
  | scalar (start : Nat) (value : Scalar)
  | array (start : Nat) (items : List Value)
  | table (start : Nat) (entries : List (String × Value))

/-- Where a value starts. -/
def Value.start : Value → Nat
  | .scalar start _ | .array start _ | .table start _ => start

instance : Inhabited Value := ⟨.table 0 []⟩

end WorkerGen.Toml
