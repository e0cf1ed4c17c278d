import WorkerGen.Toml.Scalar
import WorkerGen.Toml.Table

/-!
# TOML documents

`Document.parse?` reads a document into the value of its root table.  A document is a sequence of
lines, each of which opens a table, adds a value to the table that was opened last, or is blank; a
comment may end any line.  Lists and inline tables may span lines and end in a comma, and may stand
in one another up to a depth of eighty.

The lines are read first (`lines?`) and then added to the document one by one (`add?`), so that what
a line is does not depend on the lines before it.  Why a text is no document is not told.
-/

namespace WorkerGen.Toml

open WorkerGen.Text

/-- How many lists and inline tables may stand in one another. -/
def depthLimit : Nat := 80

/-- A text without the spaces and tabs at its start. -/
def skipBlank (s : List Char) : List Char := s.dropWhile isSpace

/-- What follows a comment, which may not hold control characters. -/
def skipComment? (s : List Char) : Option (List Char) :=
  match s with
  | '#' :: rest =>
    let rest := rest.dropWhile fun c => !isForbidden c
    if rest.isEmpty || (dropBreak? rest).isSome then some rest else none
  | _ => some s

/-- What follows the end of a line: blanks, a comment, and a line break or the end of the text. -/
def skipLineEnd? (s : List Char) : Option (List Char) := do
  let rest ← skipComment? (skipBlank s)
  if rest.isEmpty then some [] else dropBreak? rest

/-- A text without the blanks, comments and line breaks at its start. -/
def skipLines? : (fuel : Nat) → List Char → Option (List Char)
  | 0, _ => none
  | fuel + 1, s => do
    let rest ← skipComment? (skipBlank s)
    match dropBreak? rest with
    | some rest => skipLines? fuel rest
    | none => some rest

/-- Skips blanks, comments and line breaks. -/
def skipAll? (s : List Char) : Option (List Char) := skipLines? (s.length + 1) s

/-! ## Keys

A key is a list of names with dots between them, each of them bare or a text in quotes. -/

/-- Whether a name without quotes may hold a character. -/
def isBareChar (c : Char) : Bool := isAlphanumeric c || c == '_' || c == '-'

/-- One name of a key. -/
def name? (total : Nat) (s : List Char) : Option (Name × List Char) :=
  let start := total - byteLength s
  match s with
  | [] => none
  | c :: rest =>
    if isQuote c then (quotedLine? c rest).map fun (text, rest) => (⟨text, start⟩, rest)
    else
      let text := s.takeWhile isBareChar
      if text.isEmpty then none
      else some (⟨String.ofList text, start⟩, s.dropWhile isBareChar)

/-- The names of a key, between which stand dots, and what follows the key and the blanks after
it. -/
def key? (total : Nat) : (fuel : Nat) → List Char → Option (List Name × List Char)
  | 0, _ => none
  | fuel + 1, s => do
    let (name, rest) ← name? total s
    match skipBlank rest with
    | '.' :: rest => do
      let (names, rest) ← key? total fuel (skipBlank rest)
      some (name :: names, rest)
    | rest => some ([name], rest)

/-! ## Values

Lists and inline tables hold values again, so their readers call each other, with one less for the
depth each time. -/

/-- A scalar, and what follows it. -/
def scalar? (s : List Char) : Option (Scalar × List Char) :=
  match s with
  | [] => none
  | c :: rest =>
    if isQuote c then (quoted? c rest).map fun (text, rest) => (.text text, rest)
    else
      let (word, rest) := takeWord s
      (word? word).map (·, rest)

mutual

/-- A value inside at most `depth` more lists and tables, and what follows it. -/
def value? (total : Nat) : (fuel depth : Nat) → List Char → Option (Value × List Char)
  | 0, _, _ => none
  | fuel + 1, depth, s =>
    let start := total - byteLength s
    match s, depth with
    | '[' :: rest, depth + 1 => do
      let (items, rest) ← items? total fuel depth (← skipAll? rest)
      some (.array start items, rest)
    | '{' :: rest, depth + 1 => do
      let (entries, rest) ← entries? total fuel depth [] (← skipAll? rest)
      some (.table start (entryValues entries), rest)
    | s, _ => (scalar? s).map fun (scalar, rest) => (.scalar start scalar, rest)

/-- The values of a list up to its bracket, and what follows that. -/
def items? (total : Nat) : (fuel depth : Nat) → List Char → Option (List Value × List Char)
  | 0, _, _ => none
  | fuel + 1, depth, s =>
    match s with
    | ']' :: rest => some ([], rest)
    | s => do
      let (value, rest) ← value? total fuel depth s
      match ← skipAll? rest with
      | ',' :: rest => do
        let (values, rest) ← items? total fuel depth (← skipAll? rest)
        some (value :: values, rest)
      | ']' :: rest => some ([value], rest)
      | _ => none

/-- The entries of an inline table up to its brace, added to those that stand before, and what
follows the brace. -/
def entries? (total : Nat) :
    (fuel depth : Nat) → Items → List Char → Option (Items × List Char)
  | 0, _, _, _ => none
  | fuel + 1, depth, items, s =>
    match s with
    | '}' :: rest => some (items, rest)
    | s => do
      let (key, rest) ← key? total (s.length + 1) s
      let rest ← dropStart? ['='] rest
      let (value, rest) ← value? total fuel depth (skipBlank rest)
      let items ← assign value key items
      match ← skipAll? rest with
      | ',' :: rest => entries? total fuel depth items (← skipAll? rest)
      | '}' :: rest => some (items, rest)
      | _ => none

end

/-! ## Lines -/

/-- One line of a document, without blank ones. -/
inductive Line where
  /-- Opens a table. -/
  | table (start : Nat) (path : List Name)
  /-- Opens a further table of a list. -/
  | element (start : Nat) (path : List Name)
  /-- Adds a value to the open table. -/
  | entry (key : List Name) (value : Value)

/-- The line at the start of a text that does not begin with blanks. -/
def line? (total : Nat) (s : List Char) : Option (Line × List Char) :=
  let start := total - byteLength s
  match s with
  | '[' :: '[' :: rest => do
    let (path, rest) ← key? total (rest.length + 1) (skipBlank rest)
    let rest ← dropStart? [']', ']'] rest
    some (.element start path, ← skipLineEnd? rest)
  | '[' :: rest => do
    let (path, rest) ← key? total (rest.length + 1) (skipBlank rest)
    let rest ← dropStart? [']'] rest
    some (.table start path, ← skipLineEnd? rest)
  | s => do
    let (key, rest) ← key? total (s.length + 1) s
    let rest ← dropStart? ['='] rest
    let rest := skipBlank rest
    let (value, rest) ← value? total (2 * rest.length + 2) depthLimit rest
    some (.entry key value, ← skipLineEnd? rest)

/-- The lines of a text. -/
def lines? (total : Nat) : (fuel : Nat) → List Char → Option (List Line)
  | 0, _ => none
  | fuel + 1, s => do
    let s ← skipAll? s
    if s.isEmpty then some []
    else
      let (line, rest) ← line? total s
      return line :: (← lines? total fuel rest)

/-- A table and the path of the header that was opened last in it. -/
abbrev OpenDocument := Items × List Name

/-- Adds a line to a document. -/
def OpenDocument.add? (d : OpenDocument) : Line → Option OpenDocument
  | .table start path => (alter (openTable start) path d.1).map (·, path)
  | .element start path => (alter (openElement start) path d.1).map (·, path)
  | .entry key value => (assignIn key value d.2 d.1).map (·, d.2)

/-- Reads a document.  A byte order mark at its start does not count. -/
def Document.parse? (text : String) : Option Value := do
  let s := text.toList
  let total := byteLength s
  let body := (dropStart? ['\uFEFF'] s).getD s
  let lines ← lines? total (body.length + 1) body
  let (items, _) ← lines.foldlM OpenDocument.add? (([], []) : OpenDocument)
  some (.table 0 (entryValues items))

end WorkerGen.Toml
