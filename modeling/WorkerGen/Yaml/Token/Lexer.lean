import WorkerGen.Yaml.Token.Scalar
import WorkerGen.Yaml.Token.Tag

/-!
# From text to tokens

`Token.scan` divides a text into tokens.  Two things make the division depend on more than the
next characters.

* **Indentation.**  The scanner keeps the columns of the block collections that are open.  An entry
  or a key that stands deeper opens one, and a line that stands less deep closes all that are
  deeper.
* **Keys without an indicator.**  A scalar, alias or flow collection may turn out to be a key when
  a `:` follows.  The scanner therefore remembers, for each level of flow collections, the place of
  a possible key; at the `:` it puts the key's token there.  A possible key ends with its line and
  after 1024 bytes.
-/

namespace WorkerGen.Yaml

open WorkerGen.Text

/-- A place where a key may have started. -/
structure PossibleKey where
  /-- Whether what stands here has to be a key. -/
  required : Bool
  /-- The number of the first token of the key. -/
  number : Nat
  mark : Position

/-- The state of the division into tokens. -/
structure Scanner where
  here : Position
  /-- The tokens so far, newest first. -/
  tokens : List Token
  /-- The column of the innermost open block collection, and those around it; `-1` is none. -/
  indent : Int
  outer : List Int
  /-- The possible key of each open flow collection, innermost first, and of the block. -/
  keys : List (Option PossibleKey)
  /-- Whether a key without an indicator may start here. -/
  keyAllowed : Bool

namespace Scanner

/-- The state at the start of a text. -/
def start (text : List Char) : Scanner :=
  ⟨Position.start text, [], -1, [], [none], true⟩

/-- Whether the scanner is inside a flow collection. -/
def inFlow (s : Scanner) : Bool := s.keys.length > 1

/-- Adds a token that starts at `first` and stops where the scanner is. -/
def push (s : Scanner) (first : Position) (lexeme : Lexeme) : Scanner :=
  { s with tokens := ⟨lexeme, first.offset, s.here.offset⟩ :: s.tokens }

/-- Adds an empty token at the scanner's place. -/
def pushHere (s : Scanner) (lexeme : Lexeme) : Scanner := s.push s.here lexeme

/-- Adds an empty token at `mark`, as the token with the given number. -/
def insert (s : Scanner) (number : Nat) (mark : Position) (lexeme : Lexeme) : Scanner :=
  { s with
    tokens := s.tokens.insertIdx (s.tokens.length - number) ⟨lexeme, mark.offset, mark.offset⟩ }

/-! ## Indentation

Columns are kept innermost first.  Opening and closing a collection each give a token. -/

/-- How many of the open block collections stand deeper than a column, and those that do not. -/
def close (column : Int) : (indent : Int) → (outer : List Int) → Nat × Int × List Int
  | indent, [] => (0, indent, [])
  | indent, next :: outer =>
    if column < indent then
      let (count, indent, outer) := close column next outer
      (count + 1, indent, outer)
    else (0, indent, next :: outer)

/-- Closes the block collections that stand deeper than a column. -/
def unroll (s : Scanner) (column : Int) : Scanner :=
  if s.inFlow then s
  else
    let (count, indent, outer) := close column s.indent s.outer
    let ends := List.replicate count ⟨.blockEnd, s.here.offset, s.here.offset⟩
    { s with tokens := ends ++ s.tokens, indent := indent, outer := outer }

/-- Opens a block collection at the column of `mark` if none is open there; its token becomes the
one with the given number. -/
def roll (s : Scanner) (number : Nat) (mark : Position) (lexeme : Lexeme) : Scanner :=
  if s.inFlow || (mark.column : Int) ≤ s.indent then s
  else { s.insert number mark lexeme with indent := mark.column, outer := s.indent :: s.outer }

/-! ## Possible keys

There is one possible key at most for each level of flow collections.  Where a key is required, as
at the start of an entry, it is an error that none follows. -/

/-- Forgets the possible key of the innermost level, which must not have been required. -/
def dropKey (s : Scanner) : Except SyntaxFault Scanner :=
  match s.keys with
  | some key :: keys =>
    if key.required then .error .missingColon else .ok { s with keys := none :: keys }
  | _ => .ok s

/-- Remembers the scanner's place as a possible key. -/
def saveKey (s : Scanner) : Except SyntaxFault Scanner := do
  if !s.keyAllowed then return s
  let required := !s.inFlow && s.indent == (s.here.column : Int)
  let s ← s.dropKey
  return { s with keys := some ⟨required, s.tokens.length, s.here⟩ :: s.keys.drop 1 }

/-- Whether a place is too far back for a key that starts there. -/
def isStale (s : Scanner) (key : PossibleKey) : Bool :=
  key.mark.line < s.here.line || key.mark.offset + 1024 < s.here.offset

/-- Forgets the possible keys that are too far back. -/
def dropStale (s : Scanner) : Except SyntaxFault Scanner := do
  let stale (key : Option PossibleKey) := key.any s.isStale
  if s.keys.any fun key => stale key && key.any (·.required) then throw .missingColon
  return { s with keys := s.keys.map fun key => if stale key then none else key }

/-! ## Between tokens -/

/-- Moves over white space, comments and line breaks.  A tab is white space where no key may
start, and a line break in block context allows one to start. -/
def toNextToken : (fuel : Nat) → Scanner → Scanner
  | 0, s => s
  | fuel + 1, s =>
    let p := if s.here.column == 0 && s.here.sees '\ufeff' then s.here.skip else s.here
    let tabs := s.inFlow || !s.keyAllowed
    let p := (p.skipWhile fun c => c == ' ' || (tabs && c == '\t')).skipComment
    if p.atBreak then
      toNextToken fuel
        { s with here := p.skipBreak, keyAllowed := s.keyAllowed || !s.inFlow }
    else { s with here := p }

/-! ## The tokens -/

/-- Moves over `width` characters and adds them as a token. -/
def take (s : Scanner) (width : Nat) (lexeme : Lexeme) : Scanner :=
  { s with here := s.here.skipN width }.push s.here lexeme

/-- The end of the text. -/
def fetchEnd (s : Scanner) : Except SyntaxFault Scanner := do
  let s ← (s.unroll (-1)).dropKey
  return { s with keyAllowed := false }.pushHere .streamEnd

/-- A directive. -/
def fetchDirective (s : Scanner) : Except SyntaxFault Scanner := do
  let s ← (s.unroll (-1)).dropKey
  let (lexeme, p) ← Tag.directive s.here
  return { s with here := p, keyAllowed := false }.push s.here lexeme

/-- A mark between documents. -/
def fetchDocumentMark (s : Scanner) (lexeme : Lexeme) : Except SyntaxFault Scanner := do
  let s ← (s.unroll (-1)).dropKey
  return { s with keyAllowed := false }.take 3 lexeme

/-- The start of a flow collection, which may be a key as a whole. -/
def fetchFlowStart (s : Scanner) (lexeme : Lexeme) : Except SyntaxFault Scanner := do
  let s ← s.saveKey
  return { s with keys := none :: s.keys, keyAllowed := true }.take 1 lexeme

/-- The end of a flow collection. -/
def fetchFlowEnd (s : Scanner) (lexeme : Lexeme) : Except SyntaxFault Scanner := do
  let s ← s.dropKey
  let keys := if s.inFlow then s.keys.drop 1 else s.keys
  return { s with keys := keys, keyAllowed := false }.take 1 lexeme

/-- A comma between the entries of a flow collection. -/
def fetchFlowEntry (s : Scanner) : Except SyntaxFault Scanner := do
  let s ← s.dropKey
  return { s with keyAllowed := true }.take 1 .flowEntry

/-- The indicator of an entry of a block sequence. -/
def fetchBlockEntry (s : Scanner) : Except SyntaxFault Scanner := do
  if !s.inFlow && !s.keyAllowed then throw .misplacedIndicator
  let s ← (s.roll s.tokens.length s.here .blockSequenceStart).dropKey
  return { s with keyAllowed := true }.take 1 .blockEntry

/-- The indicator of a key. -/
def fetchKey (s : Scanner) : Except SyntaxFault Scanner := do
  if !s.inFlow && !s.keyAllowed then throw .misplacedIndicator
  let s ← (s.roll s.tokens.length s.here .blockMappingStart).dropKey
  return { s with keyAllowed := !s.inFlow }.take 1 .key

/-- The indicator of a value.  Where a possible key is remembered it has been one, and its token is
put before it. -/
def fetchValue (s : Scanner) : Except SyntaxFault Scanner := do
  match s.keys with
  | some key :: keys =>
    let s := (s.insert key.number key.mark .key).roll key.number key.mark .blockMappingStart
    return { s with keys := none :: keys, keyAllowed := false }.take 1 .value
  | _ =>
    if !s.inFlow && !s.keyAllowed then throw .misplacedIndicator
    let s := s.roll s.tokens.length s.here .blockMappingStart
    return { s with keyAllowed := !s.inFlow }.take 1 .value

/-- An anchor or an alias. -/
def fetchAnchor (s : Scanner) (lexeme : String → Lexeme) : Except SyntaxFault Scanner := do
  let s ← s.saveKey
  let (name, p) ← Tag.anchorName s.here.skip
  return { s with here := p, keyAllowed := false }.push s.here (lexeme name)

/-- A tag. -/
def fetchTag (s : Scanner) : Except SyntaxFault Scanner := do
  let s ← s.saveKey
  let (handle, suffix, p) ← Tag.read s.inFlow s.here
  return { s with here := p, keyAllowed := false }.push s.here (.tag handle suffix)

/-- A block scalar. -/
def fetchBlockScalar (s : Scanner) (literal : Bool) : Except SyntaxFault Scanner := do
  let s ← s.dropKey
  let (text, p) ← Scalar.block literal s.indent s.here.skip
  let style := if literal then Style.literal else Style.folded
  return { s with here := p, keyAllowed := true }.push s.here (.scalar text style)

/-- A quoted scalar. -/
def fetchQuoted (s : Scanner) (single : Bool) : Except SyntaxFault Scanner := do
  let s ← s.saveKey
  let (text, p) ← Scalar.quoted single s.here
  let style := if single then Style.singleQuoted else Style.doubleQuoted
  return { s with here := p, keyAllowed := false }.push s.here (.scalar text style)

/-- A plain scalar.  A key may start after it where it ended with a line break. -/
def fetchPlain (s : Scanner) : Except SyntaxFault Scanner := do
  let s ← s.saveKey
  let (text, newLine, p) ← Scalar.plain s.inFlow s.indent s.here
  return { s with here := p, keyAllowed := newLine }.push s.here (.scalar text .plain)

/-- The characters that start no plain scalar. -/
def isIndicator (c : Char) : Bool := "-?:,[]\x7b\x7d#&*!|>\x27\"%@\x60".toList.contains c

/-- Whether a plain scalar starts here. -/
def atPlain (s : Scanner) : Bool :=
  let p := s.here
  match p.peek with
  | none => false
  | some c =>
    !(isSpacing c || isBreak c || isIndicator c) ||
      (c == '-' && !(p.peekAt 1).any isSpacing) ||
      (!s.inFlow && (c == '?' || c == ':') && !p.gapAt 1)

/-- Reads one token, and with it the ends of block collections before it. -/
def fetch (s : Scanner) : Except SyntaxFault Scanner := do
  let s := s.toNextToken (s.here.rest.length + 1)
  let s ← s.dropStale
  let s := s.unroll s.here.column
  let p := s.here
  let free (c : Char) := p.sees c && (s.inFlow || p.gapAt 1)
  if p.atEnd then s.fetchEnd
  else if p.column == 0 && p.sees '%' then s.fetchDirective
  else if p.atMark '-' then s.fetchDocumentMark .documentStart
  else if p.atMark '.' then s.fetchDocumentMark .documentEnd
  else if p.sees '[' then s.fetchFlowStart .flowSequenceStart
  else if p.sees '{' then s.fetchFlowStart .flowMappingStart
  else if p.sees ']' then s.fetchFlowEnd .flowSequenceEnd
  else if p.sees '}' then s.fetchFlowEnd .flowMappingEnd
  else if p.sees ',' then s.fetchFlowEntry
  else if p.sees '-' && p.gapAt 1 then s.fetchBlockEntry
  else if free '?' then s.fetchKey
  else if free ':' then s.fetchValue
  else if p.sees '*' then s.fetchAnchor .alias
  else if p.sees '&' then s.fetchAnchor .anchor
  else if p.sees '!' then s.fetchTag
  else if p.sees '|' && !s.inFlow then s.fetchBlockScalar true
  else if p.sees '>' && !s.inFlow then s.fetchBlockScalar false
  else if p.sees '\'' then s.fetchQuoted true
  else if p.sees '"' then s.fetchQuoted false
  else if s.atPlain then s.fetchPlain
  else throw .unexpectedCharacter

/-- Whether the end of the text has been reached. -/
def isDone (s : Scanner) : Bool := (s.tokens.head?.map (·.lexeme)) == some .streamEnd

/-- Reads the tokens up to the end of the text. -/
def run : (fuel : Nat) → Scanner → Except SyntaxFault Scanner
  | 0, s => .ok s
  | fuel + 1, s => do
    let s ← s.fetch
    if s.isDone then return s
    run fuel s

end Scanner

/-- The tokens of a text, the last of which is its end. -/
def Token.scan (text : List Char) : Except SyntaxFault (List Token) := do
  if !text.all isAllowed then throw .forbiddenCharacter
  let s ← (Scanner.start text).run (text.length + 2)
  return s.tokens.reverse

end WorkerGen.Yaml
