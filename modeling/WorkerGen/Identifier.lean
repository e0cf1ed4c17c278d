import WorkerGen.Method
import WorkerGen.Text.Class

/-!
# Identifiers and file names

A handler has an id, which is also the name of its file: the id that the operation gives itself, or
one that is derived from its path and method.  Its name in the generated program is an identifier
made from the id.
-/

namespace WorkerGen

open Text

/-- The characters of identifiers in the generated program. -/
def isIdentifierChar (c : Char) : Bool := isAlphanumeric c || c == '_' || c == '$'

/-- A text as an identifier of the generated program.  Characters that cannot be in one become `_`,
and a `_` is put in front where the text is empty or starts with a digit. -/
def identifier (s : String) : String :=
  let body := s.toList.map fun c => if isIdentifierChar c then c else '_'
  String.ofList (if body.head?.all isDigit then '_' :: body else body)

/-- Whether a text can be the name of a single file: it is not empty, not the name of this or the
parent directory, and has no separator and no control character. -/
def isPlainFileName (name : String) : Bool :=
  let s := name.toList
  !s.isEmpty && s != ['.'] && s != ['.', '.'] &&
    s.all fun c => c != '/' && c != '\\' && !isControl c

/-- The handler id of an operation that gives itself none: the method, and the path without its
leading slash and with `_` for every slash and brace. -/
def fallbackId (path : String) (method : Method) : String :=
  let body := match path.toList with
    | '/' :: rest => rest
    | s => s
  let body := body.map fun c => if c == '/' || c == '{' || c == '}' then '_' else c
  method.name ++ "_" ++ String.ofList body

/-- The handler id of an operation. -/
def handlerId (id : Option String) (path : String) (method : Method) : String :=
  id.getD (fallbackId path method)

end WorkerGen
