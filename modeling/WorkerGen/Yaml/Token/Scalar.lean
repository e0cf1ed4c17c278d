import WorkerGen.Yaml.Position
import WorkerGen.Yaml.Token

/-!
# Reading scalars

The four written forms of a scalar: plain, quoted with one or two marks, and block scalars, whose
lines are kept or folded.  Each reader gets the position after the scalar's introduction and
answers the content and the position after it.

The readers are loops over a position.  Every round moves forward, so the number of characters
that are left bounds the rounds; that bound is the `fuel` of each loop.
-/

namespace WorkerGen.Yaml.Scalar

open WorkerGen.Text

/-! ## Quoted scalars -/

/-- The character of a one-letter escape. -/
def shortEscape? (c : Char) : Option Char :=
  match c with
  | '0' => some '\x00'
  | 'a' => some '\x07'
  | 'b' => some '\x08'
  | 't' => some '\t'
  | '\t' => some '\t'
  | 'n' => some '\n'
  | 'v' => some '\x0b'
  | 'f' => some '\x0c'
  | 'r' => some '\r'
  | 'e' => some '\x1b'
  | ' ' => some ' '
  | '"' => some '"'
  | '/' => some '/'
  | '\\' => some '\\'
  | 'N' => some '\u0085'
  | '_' => some '\u00a0'
  | 'L' => some '\u2028'
  | 'P' => some '\u2029'
  | _ => none

/-- How many hexadecimal digits a numeric escape has. -/
def escapeWidth? (c : Char) : Option Nat :=
  match c with
  | 'x' => some 2
  | 'u' => some 4
  | 'U' => some 8
  | _ => none

/-- The number written by `width` hexadecimal digits. -/
def hexNumber? : (width : Nat) → List Char → Nat → Option Nat
  | 0, _, n => some n
  | _ + 1, [], _ => none
  | width + 1, c :: rest, n => (hexValue? c).bind fun d => hexNumber? width rest (16 * n + d)

/-- The character of an escape, and how many characters the escape takes after its backslash.
Numbers that are no characters are refused. -/
def escape? : List Char → Option (Char × Nat)
  | [] => none
  | c :: rest =>
    match shortEscape? c with
    | some char => some (char, 1)
    | none => do
      let width ← escapeWidth? c
      let n ← hexNumber? width rest 0
      if n.isValidChar then some (Char.ofNat n, width + 1) else none

/-- The end of a run of characters without white space inside quotes. -/
inductive RunEnd where
  /-- White space, the closing quote or the end of the text. -/
  | plain
  /-- A line break behind a backslash. -/
  | escapedBreak

/-- Reads the characters up to white space or the closing quote, newest first. -/
def quotedRun (single : Bool) :
    (fuel : Nat) → Position → List Char → Except SyntaxFault (List Char × RunEnd × Position)
  | 0, p, text => .ok (text, .plain, p)
  | fuel + 1, p, text =>
    match p.rest with
    | [] => .ok (text, .plain, p)
    | c :: rest =>
      if isSpacing c || isBreak c then .ok (text, .plain, p)
      else if single && c == '\'' && p.peekAt 1 == some '\'' then
        quotedRun single fuel (p.skipN 2) ('\'' :: text)
      else if c == (if single then '\'' else '"') then .ok (text, .plain, p)
      else if !single && c == '\\' then
        if p.skip.atBreak then .ok (text, .escapedBreak, p.skip.skipBreak)
        else
          match escape? rest with
          | none => .error .badEscape
          | some (char, width) => quotedRun single fuel (p.skipN (width + 1)) (char :: text)
      else quotedRun single fuel p.skip (c :: text)

/-- Reads a quoted scalar from after its opening quote, newest character first. -/
def quotedFrom (single : Bool) :
    (fuel : Nat) → Position → List Char → Except SyntaxFault (List Char × Position)
  | 0, _, _ => .error .unterminatedScalar
  | fuel + 1, p, text => do
    if p.atDocumentMark then throw .unexpectedToken
    if p.atEnd then throw .unterminatedScalar
    let (text, stop, p) ← quotedRun single (p.rest.length + 1) p text
    if p.sees (if single then '\'' else '"') then return (text, p.skip)
    let some (gap, p) := Gap.read? (-1) (p.rest.length + 1) p ⟨[], []⟩ | throw .tabIndentation
    let between := match stop with
      | .plain => gap.fold
      | .escapedBreak => gap.breaks
    quotedFrom single fuel p (between.reverse ++ text)

/-- Reads a quoted scalar that starts with its opening quote. -/
def quoted (single : Bool) (p : Position) : Except SyntaxFault (String × Position) := do
  let (text, p) ← quotedFrom single (p.rest.length + 1) p.skip []
  return (String.ofList text.reverse, p)

/-! ## Plain scalars -/

/-- The indicators that end a plain scalar inside a flow collection. -/
def isFlowIndicator (c : Char) : Bool :=
  c == ',' || c == '[' || c == ']' || c == '{' || c == '}'

/-- Reads the characters up to white space or an indicator that ends the scalar, newest first. -/
def plainRun (flow : Bool) :
    (fuel : Nat) → Position → List Char → Except SyntaxFault (List Char × Position)
  | 0, p, text => .ok (text, p)
  | fuel + 1, p, text =>
    match p.peek with
    | none => .ok (text, p)
    | some c =>
      if isSpacing c || isBreak c then .ok (text, p)
      else if flow && c == ':' && (p.peekAt 1).any (fun d => isFlowIndicator d || d == '?') then
        .error .unexpectedCharacter
      else if (c == ':' && p.gapAt 1) || (flow && isFlowIndicator c) then .ok (text, p)
      else plainRun flow fuel p.skip (c :: text)

/-- Reads a plain scalar, newest character first.  `between` is the white space that has been read
and belongs to the scalar only if more of it follows, and `newLine` says whether that holds a line
break.  The answer's flag says whether the scalar ended after a line break. -/
def plainFrom (flow : Bool) (indent : Int) :
    (fuel : Nat) → Position → (text between : List Char) → (newLine : Bool) →
      Except SyntaxFault (List Char × Bool × Position)
  | 0, p, text, _, newLine => .ok (text, newLine, p)
  | fuel + 1, p, text, between, newLine => do
    if p.atDocumentMark || p.sees '#' then return (text, newLine, p)
    let (run, p) ← plainRun flow (p.rest.length + 1) p []
    let (text, newLine) :=
      if run.isEmpty then (text, newLine) else (run ++ between.reverse ++ text, false)
    if !(p.atSpacing || p.atBreak) then return (text, newLine, p)
    let some (gap, p) := Gap.read? (indent + 1) (p.rest.length + 1) p ⟨[], []⟩
      | throw .tabIndentation
    let newLine := !gap.breaks.isEmpty
    if !flow && (p.column : Int) < indent + 1 then return (text, newLine, p)
    plainFrom flow indent fuel p text gap.fold newLine

/-- Reads a plain scalar inside a block of the given indentation. -/
def plain (flow : Bool) (indent : Int) (p : Position) :
    Except SyntaxFault (String × Bool × Position) := do
  let (text, newLine, p) ← plainFrom flow indent (p.rest.length + 1) p [] [] false
  return (String.ofList text.reverse, newLine, p)

/-! ## Block scalars -/

/-- What becomes of the line breaks at the end of a block scalar. -/
inductive Chomping where
  | strip
  | clip
  | keep
deriving DecidableEq

/-- The chomping indicator that comes next. -/
def chomping? (p : Position) : Option (Chomping × Position) :=
  if p.sees '+' then some (.keep, p.skip)
  else if p.sees '-' then some (.strip, p.skip)
  else none

/-- The indentation indicator that comes next, which is not zero. -/
def increment? (p : Position) : Except SyntaxFault (Option Nat × Position) :=
  match p.peek with
  | some c =>
    if c == '0' then .error .badBlockHeader
    else if isDigit c then .ok (some (c.toNat - 48), p.skip)
    else .ok (none, p)
  | none => .ok (none, p)

/-- The header of a block scalar: its chomping and its indentation indicator, in either order, and
then at most a comment on the line. -/
def blockHeader (p : Position) : Except SyntaxFault (Chomping × Option Nat × Position) := do
  let (chomping, increment, p) ← match chomping? p with
    | some (chomping, p) => do
      let (increment, p) ← increment? p
      pure (chomping, increment, p)
    | none => do
      let (increment, p) ← increment? p
      match increment, chomping? p with
      | some _, some (chomping, p) => pure (chomping, increment, p)
      | _, _ => pure (.clip, increment, p)
  let p := (p.skipWhile isSpacing).skipComment
  if !p.lineEndAt 0 then throw .badBlockHeader
  return (chomping, increment, p.skipBreak)

/-- Moves over indentation and empty lines.  `indent` is `none` while the indentation is still to
be found; `deepest` is the deepest column seen.  The answer has the breaks. -/
def blockBreaks (indent : Option Nat) :
    (fuel : Nat) → Position → (breaks : List Char) → (deepest : Nat) →
      Except SyntaxFault (List Char × Nat × Position)
  | 0, p, breaks, deepest => .ok (breaks, deepest, p)
  | fuel + 1, p, breaks, deepest =>
    let room := match indent with
      | none => p.rest.length
      | some indent => indent - p.column
    let spaces := ((p.rest.take room).takeWhile (· == ' ')).length
    let p := p.skipN spaces
    let deepest := max deepest p.column
    if indent.all (p.column < ·) && p.sees '\t' then .error .tabIndentation
    else if p.atBreak then
      let (text, p) := p.readBreak
      blockBreaks indent fuel p (breaks ++ text) deepest
    else .ok (breaks, deepest, p)

/-- Reads the lines of a block scalar, newest character first.  `lineBreak` is the break of the
line before, `breaks` those of the empty lines since, and `blankLead` says whether the line before
starts with white space. -/
def blockLines (literal : Bool) (indent : Nat) :
    (fuel : Nat) → Position → (text lineBreak breaks : List Char) → (blankLead : Bool) →
      Except SyntaxFault (List Char × List Char × List Char × Position)
  | 0, p, text, lineBreak, breaks, _ => .ok (text, lineBreak, breaks, p)
  | fuel + 1, p, text, lineBreak, breaks, blankLead => do
    if p.column ≠ indent || p.atEnd then return (text, lineBreak, breaks, p)
    let blank := p.atSpacing
    let joined :=
      if !literal && lineBreak == ['\n'] && !blankLead && !blank then
        if breaks.isEmpty then [' '] else breaks
      else lineBreak ++ breaks
    let (run, p) := p.readWhile (!isBreak ·)
    let text := run.reverse ++ joined.reverse ++ text
    let (lineBreak, p) := p.readBreak
    let (breaks, _, p) ← blockBreaks (some indent) (p.rest.length + 1) p [] 0
    blockLines literal indent fuel p text lineBreak breaks blank

/-- Reads a block scalar from after its `|` or `>`, inside a block of the given indentation. -/
def block (literal : Bool) (parent : Int) (p : Position) :
    Except SyntaxFault (String × Position) := do
  let (chomping, increment, p) ← blockHeader p
  let given := increment.map fun n => if 0 ≤ parent then parent.toNat + n else n
  let (breaks, deepest, p) ← blockBreaks given (p.rest.length + 1) p [] 0
  let indent := given.getD (max deepest (max (parent + 1).toNat 1))
  let (text, lineBreak, breaks, p) ←
    blockLines literal indent (p.rest.length + 1) p [] [] breaks false
  let tail := match chomping with
    | .strip => []
    | .clip => lineBreak
    | .keep => lineBreak ++ breaks
  return (String.ofList (tail.reverse ++ text).reverse, p)

end WorkerGen.Yaml.Scalar
