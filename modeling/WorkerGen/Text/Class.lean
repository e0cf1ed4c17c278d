/-!
# Character classes and trimming

The classes of characters that the input formats and the checks on names refer to, and the
removal of white space at the ends of a text.

White space is the Unicode property `White_Space`, and control characters are the general category
`Cc`; both are closed lists of ranges.  The ASCII classes are ASCII alone, whatever the text.
-/

namespace WorkerGen.Text

/-- White space: the Unicode property `White_Space`. -/
def isBlank (c : Char) : Bool :=
  let n := c.toNat
  (9 ≤ n && n ≤ 13) || n == 0x20 || n == 0x85 || n == 0xA0 || n == 0x1680 ||
    (0x2000 ≤ n && n ≤ 0x200A) || n == 0x2028 || n == 0x2029 || n == 0x202F || n == 0x205F ||
    n == 0x3000

/-- Control characters: the general category `Cc`. -/
def isControl (c : Char) : Bool :=
  let n := c.toNat
  n ≤ 0x1F || (0x7F ≤ n && n ≤ 0x9F)

/-- The digits `0` to `9`. -/
def isDigit (c : Char) : Bool := '0' ≤ c && c ≤ '9'

/-- The letters `a` to `z` and `A` to `Z`. -/
def isLetter (c : Char) : Bool := ('a' ≤ c && c ≤ 'z') || ('A' ≤ c && c ≤ 'Z')

/-- An ASCII letter or digit. -/
def isAlphanumeric (c : Char) : Bool := isLetter c || isDigit c

/-- The value of a hexadecimal digit. -/
def hexValue? (c : Char) : Option Nat :=
  if isDigit c then some (c.toNat - 48)
  else if 'a' ≤ c && c ≤ 'f' then some (c.toNat - 87)
  else if 'A' ≤ c && c ≤ 'F' then some (c.toNat - 55)
  else none

/-- The lower-case form of an ASCII capital; every other character stays. -/
def lower (c : Char) : Char :=
  if 'A' ≤ c && c ≤ 'Z' then Char.ofNat (c.toNat + 32) else c

/-- The capital of an ASCII lower-case letter; every other character stays. -/
def upper (c : Char) : Char :=
  if 'a' ≤ c && c ≤ 'z' then Char.ofNat (c.toNat - 32) else c

/-! ## Trimming -/

/-- The text without the white space it starts with. -/
def trimStart (s : List Char) : List Char := s.dropWhile isBlank

/-- The text without the white space it ends with. -/
def trimEnd (s : List Char) : List Char := (s.reverse.dropWhile isBlank).reverse

/-- The text without white space at either end. -/
def trim (s : List Char) : List Char := trimEnd (trimStart s)

/-- What is left of a text after the given start, if it starts so. -/
def dropStart? : List Char → List Char → Option (List Char)
  | [], s => some s
  | _ :: _, [] => none
  | p :: ps, c :: s => if p = c then dropStart? ps s else none

/-- The pieces of a text between separators, empty ones included. -/
def pieces (separator : Char) : List Char → List (List Char)
  | [] => [[]]
  | c :: rest =>
    if c = separator then [] :: pieces separator rest
    else match pieces separator rest with
      | [] => [[c]]
      | piece :: more => (c :: piece) :: more

/-- The number of bytes that a text takes in UTF-8. -/
def byteLength (s : List Char) : Nat := s.foldr (fun c size => c.utf8Size + size) 0

end WorkerGen.Text
