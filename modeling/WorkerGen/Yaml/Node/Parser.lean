import WorkerGen.Yaml.Node
import WorkerGen.Yaml.Token.Lexer

/-!
# From tokens to a document

`Document.parse` reads a text as one document.  A node is recognised by its first token; what ends
a collection depends on how it is written:

* a block collection ends with its token of indentation;
* a block sequence that stands no deeper than the key it belongs to has no such token and ends
  before the first token that is no entry;
* a flow collection ends with its bracket; an entry of a flow sequence may be a single pair.

Anchors are numbered as they appear.  The number of a new anchor is the number of names known so
far, so that a name that is used again takes a number which the next new name takes too; the later
node then stands for both.  An alias means the node that its number stands for in the end.
-/

namespace WorkerGen.Yaml

/-- What the reader of nodes keeps. -/
structure NodeReader where
  tokens : List Token
  /-- The prefixes of the tag handles. -/
  handles : List (String × List UInt8)
  /-- The number of each anchor's name. -/
  names : List (String × Nat)
  /-- For each number of an anchor, how many nodes start before its node; newest first. -/
  places : List (Nat × Nat)
  /-- How many nodes have started. -/
  count : Nat

namespace NodeReader

/-- A step of reading nodes. -/
abbrev Step := StateT NodeReader (Except SyntaxFault)

/-- The next token; a text ends with the token of its end. -/
def peek : Step Token := do
  let r ← get
  match r.tokens with
  | [] => throw .unexpectedToken
  | t :: _ => return t

/-- Moves over the next token. -/
def advance : Step Unit := modify fun r => { r with tokens := r.tokens.drop 1 }

/-- Counts a node that starts, under its anchor if it has one. -/
def begin (anchor : Option String) : Step Unit := modify fun r =>
  match anchor with
  | none => { r with count := r.count + 1 }
  | some name =>
    let number := r.names.length
    let names :=
      if r.names.any (·.1 == name) then
        r.names.map fun e => if e.1 == name then (name, number) else e
      else (name, number) :: r.names
    { r with names := names, places := (number, r.count) :: r.places, count := r.count + 1 }

/-- An empty node. -/
def emptyNode (start : Nat) : Step Node := do
  begin none
  return .empty start

/-- The anchor and tag before a node, and where they start.  Each comes at most once. -/
def properties (t : Token) : Step (Option String × Option (String × List UInt8) × Token) := do
  match t.lexeme with
  | .anchor name => do
    advance
    let next ← peek
    match next.lexeme with
    | .tag handle suffix => do
      advance
      return (some name, some (handle, suffix), ← peek)
    | _ => return (some name, none, next)
  | .tag handle suffix => do
    advance
    let next ← peek
    match next.lexeme with
    | .anchor name => do
      advance
      return (some name, some (handle, suffix), ← peek)
    | _ => return (none, some (handle, suffix), next)
  | _ => return (none, none, t)

/-- The full form of a tag. -/
def fullTag : Option (String × List UInt8) → Step (Option (List UInt8))
  | none => return none
  | some (handle, suffix) => do
    if handle.isEmpty then return some suffix
    match (← get).handles.lookup handle with
    | some start => return some (start ++ suffix)
    | none => throw .undefinedTagHandle

mutual

/-- A node.  `block` allows block collections, and `indentless` a block sequence that stands no
deeper than its key. -/
def node : (fuel : Nat) → (block indentless : Bool) → Step Node
  | 0, _, _ => throw .unexpectedToken
  | fuel + 1, block, indentless => do
    let first ← peek
    if let .alias name := first.lexeme then
      advance
      let some number := (← get).names.lookup name | throw .unknownAnchor
      begin none
      return .alias first.start number
    let (anchor, written, t) ← properties first
    let bytes ← fullTag written
    let start := first.start
    let tag := bytes.map Tag.ofBytes
    let collection (body : Step Node) : Step Node := do
      begin anchor
      body
    match t.lexeme with
    | .blockEntry =>
      if indentless then
        collection do return .sequence start tag (← indentlessItems fuel)
      else missing anchor tag start
    | .scalar text style => do
      begin anchor
      advance
      return .scalar start (if bytes == some [33] then none else tag) style text
    | .flowSequenceStart => collection do
        advance
        return .sequence start tag (← flowItems fuel true)
    | .flowMappingStart => collection do
        advance
        return .mapping start tag (← flowEntries fuel true)
    | .blockSequenceStart =>
      if block then collection do
        advance
        return .sequence start tag (← blockItems fuel)
      else missing anchor tag start
    | .blockMappingStart =>
      if block then collection do
        advance
        return .mapping start tag (← blockEntries fuel)
      else missing anchor tag start
    | _ => missing anchor tag start

/-- The empty scalar that an anchor or tag without a node stands for. -/
def missing (anchor : Option String) (tag : Option Tag) (start : Nat) : Step Node := do
  if anchor.isNone && tag.isNone then throw .unexpectedToken
  begin anchor
  return .scalar start tag .plain ""

/-- The entries of a block sequence up to its end. -/
def blockItems : (fuel : Nat) → Step (List Node)
  | 0 => throw .unexpectedToken
  | fuel + 1 => do
    let t ← peek
    match t.lexeme with
    | .blockEntry => do
      advance
      let next ← peek
      let item ← match next.lexeme with
        | .blockEntry | .blockEnd => emptyNode t.stop
        | _ => node fuel true false
      return item :: (← blockItems fuel)
    | .blockEnd => do
      advance
      return []
    | _ => throw .unexpectedToken

/-- The entries of a block sequence that stands no deeper than its key. -/
def indentlessItems : (fuel : Nat) → Step (List Node)
  | 0 => throw .unexpectedToken
  | fuel + 1 => do
    let t ← peek
    match t.lexeme with
    | .blockEntry => do
      advance
      let next ← peek
      let item ← match next.lexeme with
        | .blockEntry | .key | .value | .blockEnd => emptyNode t.stop
        | _ => node fuel true false
      return item :: (← indentlessItems fuel)
    | _ => return []

/-- A key or value of a block mapping, behind the indicator that stops at `stop`. -/
def blockPart (fuel : Nat) (stop : Nat) : Step Node := do
  let t ← peek
  match t.lexeme with
  | .key | .value | .blockEnd => emptyNode stop
  | _ =>
    match fuel with
    | 0 => throw .unexpectedToken
    | fuel + 1 => node fuel true true

/-- The entries of a block mapping up to its end. -/
def blockEntries : (fuel : Nat) → Step (List (Node × Node))
  | 0 => throw .unexpectedToken
  | fuel + 1 => do
    let t ← peek
    match t.lexeme with
    | .key => do
      advance
      let key ← blockPart fuel t.stop
      let t ← peek
      let value ← match t.lexeme with
        | .value => do
          advance
          blockPart fuel t.stop
        | _ => emptyNode t.start
      return (key, value) :: (← blockEntries fuel)
    | .blockEnd => do
      advance
      return []
    | _ => throw .unexpectedToken

/-- The items of a flow sequence up to its bracket.  `first` says that none has been read yet. -/
def flowItems : (fuel : Nat) → (first : Bool) → Step (List Node)
  | 0, _ => throw .unexpectedToken
  | fuel + 1, first => do
    let t ← peek
    if t.lexeme == .flowSequenceEnd then
      advance
      return []
    let t ← if first then pure t else
      if t.lexeme == .flowEntry then do
        advance
        peek
      else throw .unexpectedToken
    match t.lexeme with
    | .flowSequenceEnd => do
      advance
      return []
    | .key => do
      begin none
      advance
      let pair ← flowPair fuel
      return .mapping t.start none [pair] :: (← flowItems fuel false)
    | _ => do
      let item ← node fuel false false
      return item :: (← flowItems fuel false)

/-- A single pair that is an item of a flow sequence, behind the indicator of its key. -/
def flowPair : (fuel : Nat) → Step (Node × Node)
  | 0 => throw .unexpectedToken
  | fuel + 1 => do
    let t ← peek
    let key ← match t.lexeme with
      | .value | .flowEntry | .flowSequenceEnd => do
        advance
        emptyNode t.stop
      | _ => node fuel false false
    let t ← peek
    let value ← match t.lexeme with
      | .value => do
        advance
        let t ← peek
        match t.lexeme with
        | .flowEntry | .flowSequenceEnd => emptyNode t.start
        | _ => node fuel false false
      | _ => emptyNode t.start
    return (key, value)

/-- The entries of a flow mapping up to its bracket.  `first` says that none has been read yet. -/
def flowEntries : (fuel : Nat) → (first : Bool) → Step (List (Node × Node))
  | 0, _ => throw .unexpectedToken
  | fuel + 1, first => do
    let t ← peek
    if t.lexeme == .flowMappingEnd then
      advance
      return []
    let t ← if first then pure t else
      if t.lexeme == .flowEntry then do
        advance
        peek
      else throw .unexpectedToken
    match t.lexeme with
    | .flowMappingEnd => do
      advance
      return []
    | .key => do
      advance
      let t ← peek
      let key ← match t.lexeme with
        | .value | .flowEntry | .flowMappingEnd => emptyNode t.start
        | _ => node fuel false false
      let t ← peek
      let value ← match t.lexeme with
        | .value => do
          advance
          let t ← peek
          match t.lexeme with
          | .flowEntry | .flowMappingEnd => emptyNode t.start
          | _ => node fuel false false
        | _ => emptyNode t.start
      return (key, value) :: (← flowEntries fuel false)
    | _ => do
      let key ← node fuel false false
      let t ← peek
      let value ← emptyNode t.start
      return (key, value) :: (← flowEntries fuel false)

end

/-! ## Documents -/

/-- The directives before a document: at most one version, which is 1.1 or 1.2, and no handle
twice. -/
def directives : (fuel : Nat) → (versioned : Bool) → List (String × List UInt8) →
    Step (List (String × List UInt8))
  | 0, _, _ => throw .unexpectedToken
  | fuel + 1, versioned, handles => do
    let t ← peek
    match t.lexeme with
    | .versionDirective major minor => do
      if versioned || major != 1 || !(minor == 1 || minor == 2) then throw .badDirective
      advance
      directives fuel true handles
    | .tagDirective handle start => do
      if handles.any (·.1 == handle) then throw .badDirective
      advance
      directives fuel versioned ((handle, start) :: handles)
    | _ => return handles

/-- The prefixes of the handles that need no directive. -/
def defaultHandles : List (String × List UInt8) :=
  [("!", [33]), ("!!", bytesOf "tag:yaml.org,2002:")]

/-- The root of the only document, or `none` where the text holds none. -/
def document (fuel : Nat) : Step (Option Node) := do
  let t ← peek
  match t.lexeme with
  | .streamEnd => return none
  | .versionDirective .. | .tagDirective .. | .documentStart => do
    let handles ← directives fuel false []
    modify fun r => { r with handles := handles ++ defaultHandles }
    if (← peek).lexeme != .documentStart then throw .unexpectedToken
    advance
    let t ← peek
    match t.lexeme with
    | .versionDirective .. | .tagDirective .. | .documentStart | .documentEnd | .streamEnd =>
      return some (← emptyNode t.start)
    | _ => return some (← node fuel true false)
  | _ => return some (← node fuel true false)

/-- The end of the text behind the only document. -/
def finish : (fuel : Nat) → Step Unit
  | 0 => throw .unexpectedToken
  | fuel + 1 => do
    match (← peek).lexeme with
    | .documentEnd => do
      advance
      finish fuel
    | .streamEnd => return
    | _ => throw .severalDocuments

end NodeReader

/-- The text without the mark of its encoding. -/
def withoutMark : List Char → List Char
  | c :: rest => if c == '\ufeff' then rest else c :: rest
  | [] => []

/-- Reads a text as one document. -/
def Document.parse (text : String) : Except SyntaxFault Document := do
  let tokens ← Token.scan (withoutMark text.toList)
  let fuel := 4 * tokens.length + 8
  let reader : NodeReader := ⟨tokens, NodeReader.defaultHandles, [], [], 0⟩
  let (root, reader) ← (do
    let root ← NodeReader.document fuel
    NodeReader.finish fuel
    return root : NodeReader.Step (Option Node)).run reader
  let nodes := (root.map Node.subnodes).getD []
  let anchored := reader.places.filterMap fun (number, place) =>
    nodes[place]?.map fun node => (number, node)
  return ⟨root, anchored⟩

end WorkerGen.Yaml
