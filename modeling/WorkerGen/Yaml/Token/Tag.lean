import WorkerGen.Yaml.Position
import WorkerGen.Yaml.Token

/-!
# Reading directives, anchors and tags

The words that stand before a node or before a document: `%YAML` and `%TAG` directives, anchors,
aliases and tags.  Tags are sequences of bytes, because an escape in them writes a byte.

A tag is read as its handle and its suffix, and what the handle stands for is put in later, when the
directives of the document are known.
-/

namespace WorkerGen.Yaml.Tag

open WorkerGen.Text

/-- The bytes of a character. -/
def charBytes (c : Char) : List UInt8 := (String.ofList [c]).toUTF8.toList

/-- The bytes of a text. -/
def textBytes (s : List Char) : List UInt8 := s.flatMap charBytes

/-- The characters that a tag may hold unescaped; `verbatim` admits those of a tag in angle
brackets too. -/
def isTagChar (verbatim : Bool) (c : Char) : Bool :=
  isWordChar c || ";/?:@&=+$.%!~*'()".toList.contains c || (verbatim && ",[]".toList.contains c)

/-- How many bytes a UTF-8 sequence has, by its first byte. -/
def sequenceLength? (byte : Nat) : Option Nat :=
  if byte < 0x80 then some 1
  else if 0xC0 ≤ byte && byte < 0xE0 then some 2
  else if 0xE0 ≤ byte && byte < 0xF0 then some 3
  else if 0xF0 ≤ byte && byte < 0xF8 then some 4
  else none

/-- The byte of an escape `%XX`. -/
def escapedByte? (p : Position) : Option Nat := do
  if !p.sees '%' then none
  let high ← (p.peekAt 1).bind hexValue?
  let low ← (p.peekAt 2).bind hexValue?
  some (16 * high + low)

/-- The `count` bytes that continue an escaped sequence. -/
def continuation : (count : Nat) → Position → Option (List UInt8 × Position)
  | 0, p => some ([], p)
  | count + 1, p => do
    let byte ← escapedByte? p
    if !(0x80 ≤ byte && byte < 0xC0) then none
    let (more, p) ← continuation count (p.skipN 3)
    some (byte.toUInt8 :: more, p)

/-- The bytes of one escaped UTF-8 sequence. -/
def escapedSequence? (p : Position) : Option (List UInt8 × Position) := do
  let byte ← escapedByte? p
  let length ← sequenceLength? byte
  let (more, p) ← continuation (length - 1) (p.skipN 3)
  some (byte.toUInt8 :: more, p)

/-- The bytes of the longest run of tag characters. -/
def bytes (verbatim : Bool) :
    (fuel : Nat) → Position → Except SyntaxFault (List UInt8 × Position)
  | 0, p => .ok ([], p)
  | fuel + 1, p =>
    match p.peek with
    | none => .ok ([], p)
    | some c =>
      if !isTagChar verbatim c then .ok ([], p)
      else if c == '%' then
        match escapedSequence? p with
        | none => .error .badTag
        | some (head, p) => do
          let (more, p) ← bytes verbatim fuel p
          return (head ++ more, p)
      else do
        let (more, p) ← bytes verbatim fuel p.skip
        return (charBytes c ++ more, p)

/-- A handle: `!`, then word characters, then `!` again if it comes. -/
def handle (p : Position) : Except SyntaxFault (List Char × Position) := do
  if !p.sees '!' then throw .badTag
  let (word, p) := p.skip.readWhile isWordChar
  if p.sees '!' then return (['!'] ++ word ++ ['!'], p.skip)
  return ('!' :: word, p)

/-- A tag before a node, as its handle and suffix.  A tag in angle brackets and the tag `!` have
no handle. -/
def read (flow : Bool) (p : Position) : Except SyntaxFault (String × List UInt8 × Position) := do
  let (name, suffix, p) ←
    if p.peekAt 1 == some '<' then do
      let (suffix, p) ← bytes true (p.rest.length + 1) (p.skipN 2)
      if suffix.isEmpty || !p.sees '>' then throw .badTag
      pure ("", suffix, p.skip)
    else do
      let (head, p) ← handle p
      if head.length > 1 && head.getLast? == some '!' then do
        let (suffix, p) ← bytes false (p.rest.length + 1) p
        if suffix.isEmpty then throw .badTag
        pure (String.ofList head, suffix, p)
      else do
        let (more, p) ← bytes false (p.rest.length + 1) p
        let suffix := textBytes (head.drop 1) ++ more
        pure (if suffix.isEmpty then ("", [33], p) else ("!", suffix, p))
  if !(flow && p.sees ',') && !p.gapAt 0 then throw .badTag
  return (name, suffix, p)

/-- The name of an anchor or alias, which ends at white space or at an indicator. -/
def anchorName (p : Position) : Except SyntaxFault (String × Position) := do
  let (name, p) := p.readWhile isWordChar
  if name.isEmpty then throw .badAnchor
  if !(p.gapAt 0 || p.peek.any ("?:,]\x7d%@\x60".toList.contains ·)) then throw .badAnchor
  return (String.ofList name, p)

/-! ## Directives -/

/-- A number of at most nine digits. -/
def versionNumber (p : Position) : Except SyntaxFault (Nat × Position) := do
  let (digits, p) := p.readWhile isDigit
  if digits.isEmpty || digits.length > 9 then throw .badDirective
  return (digits.foldl (fun n c => 10 * n + (c.toNat - 48)) 0, p)

/-- A directive from its `%` up to the end of its line. -/
def directive (p : Position) : Except SyntaxFault (Lexeme × Position) := do
  let (name, p) := p.skip.readWhile isWordChar
  if name.isEmpty || !p.gapAt 0 then throw .badDirective
  let (lexeme, p) ←
    if name == "YAML".toList then do
      let (major, p) ← versionNumber (p.skipWhile isSpacing)
      if !p.sees '.' then throw .badDirective
      let (minor, p) ← versionNumber p.skip
      pure (Lexeme.versionDirective major minor, p)
    else if name == "TAG".toList then do
      let (word, p) ← handle (p.skipWhile isSpacing)
      if word.length > 1 && word.getLast? != some '!' then throw .badDirective
      if !p.atSpacing then throw .badDirective
      let p := p.skipWhile isSpacing
      let (start, p) ← bytes true (p.rest.length + 1) p
      if start.isEmpty || !p.gapAt 0 then throw .badDirective
      pure (Lexeme.tagDirective (String.ofList word) start, p)
    else throw .badDirective
  let p := (p.skipWhile isSpacing).skipComment
  if !p.lineEndAt 0 then throw .badDirective
  return (lexeme, p.skipBreak)

end WorkerGen.Yaml.Tag
