import WorkerGen.Text.Class

/-!
# HTTP methods

The methods that a path may declare operations for, with their names in lower case.  A name is
recognised in any ASCII case.
-/

namespace WorkerGen

/-- An HTTP method. -/
inductive Method where
  | get
  | put
  | post
  | delete
  | options
  | head
  | patch
  | trace
deriving DecidableEq, Inhabited, Repr

namespace Method

/-- All methods, in the order in which API descriptions list them. -/
def all : List Method := [.get, .put, .post, .delete, .options, .head, .patch, .trace]

/-- The name of a method, in lower case. -/
def name : Method → String
  | .get => "get"
  | .put => "put"
  | .post => "post"
  | .delete => "delete"
  | .options => "options"
  | .head => "head"
  | .patch => "patch"
  | .trace => "trace"

theorem name_injective {m n : Method} (h : m.name = n.name) : m = n := by
  cases m <;> cases n <;> first | rfl | exact absurd h (by decide)

/-- The names of methods consist of letters. -/
theorem isLetter_of_mem_name {m : Method} {c : Char} (h : c ∈ m.name.toList) :
    Text.isLetter c = true := by
  have hall : m.name.toList.all Text.isLetter = true := by cases m <;> decide
  exact List.all_eq_true.mp hall c h

/-- The method of a name in any ASCII case. -/
def ofName? (s : String) : Option Method :=
  all.find? fun m => s.toList.map Text.lower == m.name.toList

/-- The place of a method among all. -/
def index (m : Method) : Nat := all.idxOf m

/-- The name of a method in capitals. -/
def upperName (m : Method) : String := String.ofList (m.name.toList.map Text.upper)

end Method

/-- The message about a name that is no method. -/
def unknownMethodMessage (name : String) : String := "unknown HTTP method '" ++ name ++ "'"

end WorkerGen
