import WorkerGen.Json.Value
import WorkerGen.Method
import WorkerGen.Text.Class

/-!
# Routes

An entry of the routing table: a path and method, and the handler that serves them.  A path is
divided at its slashes into segments; a segment in braces is a parameter, which matches any
segment of a request.
-/

namespace WorkerGen

/-- One segment of a path. -/
inductive Segment where
  /-- Matches its own text. -/
  | literal (text : String)
  /-- Matches any segment, under a name. -/
  | param (name : String)
deriving DecidableEq

namespace Segment

/-- A piece of a path as a segment: a parameter if it is something in braces. -/
def ofPiece (piece : List Char) : Segment :=
  match piece with
  | '{' :: rest =>
    match rest.reverse with
    | '}' :: c :: more => .param (String.ofList (c :: more).reverse)
    | _ => .literal (String.ofList piece)
  | _ => .literal (String.ofList piece)

/-- The segments of a path. -/
def ofPath (path : String) : List Segment :=
  ((Text.pieces '/' path.toList).filter (!·.isEmpty)).map ofPiece

/-- Whether a segment is a parameter. -/
def isParam : Segment → Bool
  | .literal _ => false
  | .param _ => true

/-- A segment as JSON. -/
def toJson : Segment → Json
  | .literal text => .object [("literal", .string text)]
  | .param name => .object [("param", .string name)]

end Segment

/-- An entry of the routing table. -/
structure Route where
  method : Method
  path : String
  segments : List Segment
  /-- The id of the handler; requests without one are passed through. -/
  handler : Option String
deriving DecidableEq

namespace Route

/-- The route of a path. -/
def new (method : Method) (path : String) (handler : Option String) : Route :=
  ⟨method, path, Segment.ofPath path, handler⟩

/-- How many parameters a route has; fewer are more specific. -/
def paramCount (r : Route) : Nat := r.segments.countP Segment.isParam

/-- Whether requests are passed through. -/
def isPassthrough (r : Route) : Bool := r.handler.isNone

/-- The segments as JSON. -/
def segmentsJson (r : Route) : Json := .array (r.segments.map Segment.toJson)

end Route

end WorkerGen
