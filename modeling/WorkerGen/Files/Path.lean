import WorkerGen.Text.Class

/-!
# Paths

A path is a text whose names are divided by slashes.  It is kept as written, since messages show it
so; empty names and the name `.` have no meaning, except a `.` that begins a path.
-/

namespace WorkerGen

/-- A path, as written. -/
structure Path where
  text : String
deriving DecidableEq, Inhabited

instance : Coe String Path := ⟨Path.mk⟩

/-- One step of a path. -/
inductive PathStep where
  | root
  /-- The `.` that begins a path. -/
  | current
  | parent
  | name (text : String)
deriving DecidableEq

namespace Path

/-- Whether a path begins at the root. -/
def isAbsolute (p : Path) : Bool := p.text.toList.head? == some '/'

/-- The path `q`, seen from `p`. -/
def join (p q : Path) : Path :=
  if q.isAbsolute || p.text.isEmpty then q
  else if p.text.toList.getLast? = some '/' then ⟨p.text ++ q.text⟩
  else ⟨p.text ++ "/" ++ q.text⟩

/-- The pieces of a path between its slashes, without the empty one before the root. -/
def pieces (p : Path) : List (List Char) :=
  let all := Text.pieces '/' p.text.toList
  if p.isAbsolute then all.tail else all

/-- The pieces of a path, each with the step that it stands for, if it has a meaning. -/
def marked (p : Path) : List (List Char × Option PathStep) :=
  p.pieces.mapIdx fun index piece =>
    (piece,
      if piece.isEmpty then none
      else if piece = ['.'] then
        if index = 0 && !p.isAbsolute then some .current else none
      else if piece = ['.', '.'] then some .parent
      else some (.name (String.ofList piece)))

/-- The steps of a path. -/
def steps (p : Path) : List PathStep :=
  (if p.isAbsolute then [.root] else []) ++ p.marked.filterMap (·.2)

/-- The path of the directory that a path is in: the path without its last step.  An empty path and
the root are in none. -/
def parent? (p : Path) : Option Path :=
  let meaningless (piece : List Char × Option PathStep) : Bool := piece.2.isNone
  match p.marked.reverse.dropWhile meaningless with
  | [] => none
  | _ :: rest =>
    let kept := (rest.dropWhile meaningless).reverse.map fun piece => String.ofList piece.1
    some ⟨(if p.isAbsolute then "/" else "") ++ "/".intercalate kept⟩

/-- A path and the paths of the directories it is in, innermost first, at most `fuel` of them. -/
def ancestorsUpTo : (fuel : Nat) → Path → List Path
  | 0, _ => []
  | fuel + 1, p =>
    p :: match p.parent? with
      | none => []
      | some q => ancestorsUpTo fuel q

/-- A path and the paths of the directories it is in, innermost first. -/
def ancestors (p : Path) : List Path := ancestorsUpTo (p.pieces.length + 1) p

end Path

end WorkerGen
