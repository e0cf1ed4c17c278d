import WorkerGen.Dictionary
import WorkerGen.Text.Class

/-!
# Environment files

An environment file sets variables, one to a line: a name, `=` and a value.  Blank lines and
comments are skipped, and a line may begin with `export`.

A value may stand in single quotes, where every character stands for itself, or in double quotes,
where `\n` is a line break.  Without quotes it ends where the line ends or a comment begins.  One
malformed line, or a name that is set twice, makes the whole file malformed.
-/

namespace WorkerGen

open Text

/-- Why a line of an environment file is malformed. -/
inductive EnvFault where
  /-- Nothing is set behind `export`. -/
  | nothingExported
  | noEquals
  | invalidName (name : String)
  | unterminated
  | textAfterQuote
  /-- The name is set by an earlier line. -/
  | repeated (name : String)
  /-- The file cannot be read. -/
  | unreadable (why : String)
deriving DecidableEq

/-- The wording of a fault. -/
def EnvFault.message : EnvFault → String
  | .nothingExported => "expected KEY=VALUE after 'export'"
  | .noEquals => "missing '='"
  | .invalidName name => "invalid variable name '" ++ name ++ "'"
  | .unterminated => "unterminated quoted value"
  | .textAfterQuote => "unexpected text after quoted value"
  | .repeated name => "duplicate variable '" ++ name ++ "'"
  | .unreadable why => "failed to read: " ++ why

/-- A malformed line, or a file that cannot be read. -/
structure EnvError where
  /-- The number of the line, counted from one; zero stands for the whole file. -/
  line : Nat
  fault : EnvFault
deriving DecidableEq

/-- The wording of an error. -/
def EnvError.message (e : EnvError) : String :=
  "line " ++ toString e.line ++ ": " ++ e.fault.message

namespace EnvFile

/-! ## Lines -/

/-- A line without the carriage return at its end, given the line backwards. -/
def endedLine (reversed : List Char) : List Char :=
  match reversed with
  | '\r' :: rest => rest.reverse
  | rest => rest.reverse

/-- The lines of a text that goes on from a line begun before, given backwards.  A line ends with a
line feed and a carriage return before it, if there is one; the last line need not end. -/
def linesAfter : (begun : List Char) → List Char → List (List Char)
  | begun, [] => if begun.isEmpty then [] else [begun.reverse]
  | begun, c :: rest =>
    if c = '\n' then endedLine begun :: linesAfter [] rest else linesAfter (c :: begun) rest

/-- The lines of a text. -/
def lines (s : List Char) : List (List Char) := linesAfter [] s

/-! ## Assignments -/

/-- Splits a text at the first `c`, which belongs to neither part. -/
def splitAt? (c : Char) : List Char → Option (List Char × List Char)
  | [] => none
  | d :: rest =>
    if d = c then some ([], rest)
    else (splitAt? c rest).map fun (before, after) => (d :: before, after)

/-- Whether a text can be the name of a variable. -/
def isName (s : List Char) : Bool :=
  !s.isEmpty && !s.head?.any isDigit && s.all fun c => isAlphanumeric c || c == '_'

/-- The part of an unquoted value that is no comment: what stands before a `#` behind a space. -/
def beforeComment : List Char → List Char
  | [] => []
  | [c] => [c]
  | c :: d :: rest => if c = ' ' && d = '#' then [] else c :: beforeComment (d :: rest)

/-- A value in double quotes with its line breaks written out. -/
def withBreaks : List Char → List Char
  | [] => []
  | [c] => [c]
  | c :: d :: rest =>
    if c = '\\' && d = 'n' then '\n' :: withBreaks rest else c :: withBreaks (d :: rest)

/-- The value behind its opening quote. -/
def quotedValue (quote : Char) (s : List Char) : Except EnvFault (List Char) :=
  match splitAt? quote s with
  | none => .error .unterminated
  | some (inner, rest) =>
    match trimStart rest with
    | [] | '#' :: _ => .ok (if quote = '"' then withBreaks inner else inner)
    | _ => .error .textAfterQuote

/-- The value that a text behind `=` stands for. -/
def value (s : List Char) : Except EnvFault (List Char) :=
  match trimStart s with
  | [] => .ok []
  | c :: rest =>
    if c = '"' || c = '\x27' then quotedValue c rest
    else .ok (trimEnd (beforeComment (c :: rest)))

/-- The assignment in a line without white space around it. -/
def assignment (s : List Char) : Except EnvFault (String × String) := do
  let (exported, s) := match dropStart? "export ".toList s with
    | some rest => (true, trimStart rest)
    | none => (false, s)
  match splitAt? '=' s with
  | none => .error (if exported then .nothingExported else .noEquals)
  | some (name, rest) =>
    let name := trimEnd name
    if isName name then
      let value ← value rest
      return (String.ofList name, String.ofList value)
    else .error (.invalidName (String.ofList name))

/-- The assignment in a line; blank lines and comments have none. -/
def line? (s : List Char) : Except EnvFault (Option (String × String)) :=
  match trim s with
  | [] | '#' :: _ => .ok none
  | s => (assignment s).map some

/-! ## Files -/

/-- The assignments of numbered lines, given the names that are already set. -/
def assignments (names : List String) :
    (number : Nat) → List (List Char) → Except EnvError (List (String × String))
  | _, [] => .ok []
  | number, s :: rest =>
    match line? s with
    | .error fault => .error ⟨number, fault⟩
    | .ok none => assignments names (number + 1) rest
    | .ok (some (name, value)) =>
      if names.contains name then .error ⟨number, .repeated name⟩
      else (assignments (name :: names) (number + 1) rest).map ((name, value) :: ·)

end EnvFile

/-- The variables that an environment file sets, in its order. -/
structure EnvFile where
  vars : List (String × String)
deriving DecidableEq

namespace EnvFile

/-- Reads an environment file. -/
def parse (text : String) : Except EnvError EnvFile :=
  (assignments [] 1 (lines text.toList)).map EnvFile.mk

/-- The value of a variable. -/
def get? (file : EnvFile) (name : String) : Option String := file.vars.lookup name

/-- How many variables a file sets. -/
def size (file : EnvFile) : Nat := file.vars.length

/-- The variables by their names. -/
def toDictionary (file : EnvFile) : Dictionary String := .ofList file.vars

end EnvFile

end WorkerGen
