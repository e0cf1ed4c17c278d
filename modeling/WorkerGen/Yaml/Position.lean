import WorkerGen.Text.Class

/-!
# Positions in a YAML text

A position is what is left of a text together with how far the reader has come: the offset in
bytes, and the line and column that indentation is measured in.  This module has the movements
over single characters, runs and line breaks, and the white space inside a scalar that runs over
several lines.

A line break is a line feed, a carriage return, both in this order, or one of the characters
`U+0085`, `U+2028` and `U+2029`.  In the content of a scalar the last two stand for themselves and
every other break is read as a line feed.
-/

namespace WorkerGen.Yaml

open WorkerGen.Text

/-- Whether a character may occur in a document at all. -/
def isAllowed (c : Char) : Bool :=
  let n := c.toNat
  n == 0x09 || n == 0x0A || n == 0x0D || (0x20 ≤ n && n ≤ 0x7E) || n == 0x85 ||
    (0xA0 ≤ n && n ≤ 0xFFFD) || 0x10000 ≤ n

/-- A character that ends a line. -/
def isBreak (c : Char) : Bool :=
  let n := c.toNat
  n == 0x0A || n == 0x0D || n == 0x85 || n == 0x2028 || n == 0x2029

/-- A space or a tab. -/
def isSpacing (c : Char) : Bool := c == ' ' || c == '\t'

/-- The characters of anchors and tag handles. -/
def isWordChar (c : Char) : Bool := isAlphanumeric c || c == '_' || c == '-'

/-- What is left of a text, and where it starts in the whole. -/
structure Position where
  rest : List Char
  offset : Nat
  line : Nat
  column : Nat
deriving Inhabited

namespace Position

/-- The start of a text. -/
def start (text : List Char) : Position := ⟨text, 0, 0, 0⟩

/-- The next character. -/
def peek (p : Position) : Option Char := p.rest.head?

/-- The character `i` places ahead. -/
def peekAt (p : Position) (i : Nat) : Option Char := p.rest[i]?

/-- Whether the next character is the given one. -/
def sees (p : Position) (c : Char) : Bool := p.peek == some c

/-- Whether the text has ended. -/
def atEnd (p : Position) : Bool := p.rest.isEmpty

/-- Whether a line break comes next. -/
def atBreak (p : Position) : Bool := p.peek.any isBreak

/-- Whether a space or a tab comes next. -/
def atSpacing (p : Position) : Bool := p.peek.any isSpacing

/-- Whether `i` places ahead there is white space or the end of the text. -/
def gapAt (p : Position) (i : Nat) : Bool :=
  (p.peekAt i).all fun c => isSpacing c || isBreak c

/-- Whether `i` places ahead the line ends. -/
def lineEndAt (p : Position) (i : Nat) : Bool := (p.peekAt i).all isBreak

/-- Past the next character. -/
def skip (p : Position) : Position :=
  match p.rest with
  | [] => p
  | c :: rest => ⟨rest, p.offset + c.utf8Size, p.line, p.column + 1⟩

/-- Past the next `n` characters. -/
def skipN : Nat → Position → Position
  | 0, p => p
  | n + 1, p => skipN n p.skip

/-- Past the longest run of characters of a class, which holds no line break. -/
def skipWhile (p : Position) (class? : Char → Bool) : Position :=
  let run := p.rest.takeWhile class?
  ⟨p.rest.dropWhile class?, p.offset + byteLength run, p.line, p.column + run.length⟩

/-- The longest run of characters of a class, which holds no line break, and the place past it. -/
def readWhile (p : Position) (class? : Char → Bool) : List Char × Position :=
  (p.rest.takeWhile class?, p.skipWhile class?)

/-- The line break that comes next, as content of a scalar, and the place past it. -/
def readBreak (p : Position) : List Char × Position :=
  match p.rest with
  | '\r' :: '\n' :: rest => (['\n'], ⟨rest, p.offset + 2, p.line + 1, 0⟩)
  | c :: rest =>
    if isBreak c then
      let n := c.toNat
      (if n == 0x2028 || n == 0x2029 then [c] else ['\n'],
        ⟨rest, p.offset + c.utf8Size, p.line + 1, 0⟩)
    else ([], p)
  | [] => ([], p)

/-- Past the line break that comes next. -/
def skipBreak (p : Position) : Position := p.readBreak.2

/-- Past the rest of the line, its break excluded. -/
def skipLine (p : Position) : Position := p.skipWhile (!isBreak ·)

/-- Past a comment, if one starts here. -/
def skipComment (p : Position) : Position := if p.sees '#' then p.skipLine else p

/-- Whether the line starts here with a mark made of three of the given character. -/
def atMark (p : Position) (c : Char) : Bool :=
  p.column == 0 && p.sees c && p.peekAt 1 == some c && p.peekAt 2 == some c && p.gapAt 3

/-- Whether the line starts here with one of the marks between documents. -/
def atDocumentMark (p : Position) : Bool := p.atMark '-' || p.atMark '.'

end Position

/-! ## White space inside scalars -/

/-- White space between two words of a scalar: the spaces before the first line break, and the
breaks. -/
structure Gap where
  spaces : List Char
  breaks : List Char

namespace Gap

/-- What a gap contributes to the scalar: its spaces if it stays on the line; else its breaks, of
which a first line feed only folds the lines, into a space where no other break follows. -/
def fold (gap : Gap) : List Char :=
  match gap.breaks with
  | [] => gap.spaces
  | ['\n'] => [' ']
  | '\n' :: more => more
  | breaks => breaks

/-- Reads a gap.  `tabColumn` is the column left of which a tab after a line break is refused; the
answer is `none` where one is. -/
def read? (tabColumn : Int) : (fuel : Nat) → Position → Gap → Option (Gap × Position)
  | 0, p, gap => some (gap, p)
  | fuel + 1, p, gap =>
    if p.atSpacing then
      if gap.breaks.isEmpty then
        let (run, p) := p.readWhile isSpacing
        read? tabColumn fuel p ⟨gap.spaces ++ run, []⟩
      else if p.sees '\t' && (p.column : Int) < tabColumn then none
      else read? tabColumn fuel p.skip gap
    else if p.atBreak then
      let (text, p) := p.readBreak
      read? tabColumn fuel p ⟨gap.spaces, gap.breaks ++ text⟩
    else some (gap, p)

end Gap

end WorkerGen.Yaml
