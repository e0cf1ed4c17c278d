import WorkerGen.Json.Value
import WorkerGen.Number.Shortest

/-!
# JSON text

The compact written form of JSON values: no white space, members in their order, whole numbers as
decimal digits and binary64 numbers as the shortest digits that read back.

In a string literal the quote, the backslash and the characters below the space are escaped, with
the short escapes where JSON has them; everything else stands for itself.
-/

namespace WorkerGen

namespace Json

/-- A hexadecimal digit, in lower case. -/
def hexDigit (n : Nat) : Char := Nat.digitChar (n % 16)

/-- One character inside a string literal. -/
def escapeChar (c : Char) : List Char :=
  if c = '"' then ['\\', '"']
  else if c = '\\' then ['\\', '\\']
  else if c.toNat < 0x20 then
    if c = '\n' then ['\\', 'n']
    else if c = '\r' then ['\\', 'r']
    else if c = '\t' then ['\\', 't']
    else if c.toNat = 8 then ['\\', 'b']
    else if c.toNat = 12 then ['\\', 'f']
    else ['\\', 'u', '0', '0', hexDigit (c.toNat / 16), hexDigit c.toNat]
  else [c]

/-- The characters between the quotes of a string literal. -/
def escape (s : List Char) : List Char := s.flatMap escapeChar

/-- A text as a string literal. -/
def literal (s : String) : List Char := ['"'] ++ escape s.toList ++ ['"']

end Json

/-- The digits of a whole number, with its sign. -/
def intText : Int → List Char
  | .ofNat n => decimalDigits n
  | .negSucc n => '-' :: decimalDigits (n + 1)

/-- The text of a number. -/
def JsonNumber.text : JsonNumber → List Char
  | .int n => intText n
  | .float x => x.text .json

namespace Json

mutual

/-- The compact text of a value. -/
def text : Json → List Char
  | .null => ['n', 'u', 'l', 'l']
  | .bool true => ['t', 'r', 'u', 'e']
  | .bool false => ['f', 'a', 'l', 's', 'e']
  | .number n => n.text
  | .string s => literal s
  | .array items => ['['] ++ itemsText items ++ [']']
  | .object members => ['{'] ++ membersText members ++ ['}']

/-- The texts of the items of an array, with commas between them. -/
def itemsText : List Json → List Char
  | [] => []
  | [v] => text v
  | v :: w :: rest => text v ++ [','] ++ itemsText (w :: rest)

/-- The texts of the members of an object, with commas between them. -/
def membersText : List (String × Json) → List Char
  | [] => []
  | [(k, v)] => literal k ++ [':'] ++ text v
  | (k, v) :: m :: rest => literal k ++ [':'] ++ text v ++ [','] ++ membersText (m :: rest)

end

/-- The compact text of a value, as a string. -/
def encode (v : Json) : String := String.ofList v.text

end Json

end WorkerGen
