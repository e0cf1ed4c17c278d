import WorkerGen.Toml.Value

/-!
# The written forms of scalars

Texts stand between quotes, of one line or of several; with double quotes, backslashes escape.
Everything else is a word: a truth value, a number, a date or a time.  Digits may be grouped by
underscores, and a decimal number has no leading zeros.

A word is taken from a text as far as its characters go, and only then is it asked what the word is.
So a word that is no value makes the whole text malformed, even where a beginning of it would be
one.  Readers of texts answer what follows the closing quote.
-/

namespace WorkerGen.Toml

open WorkerGen.Text

/-! ## Words -/

/-- Whether a word may hold a character. -/
def isWordChar (c : Char) : Bool :=
  isAlphanumeric c || c == '_' || c == '-' || c == '+' || c == '.' || c == ':'

/-- Digits without the underscores that group them.  An underscore has a digit on either side. -/
def ungrouped? (isDigit : Char → Bool) : List Char → Option (List Char)
  | [] => none
  | [c] => if isDigit c then some [c] else none
  | c :: d :: rest =>
    if !isDigit c then none
    else if d = '_' then (ungrouped? isDigit rest).map (c :: ·)
    else (ungrouped? isDigit (d :: rest)).map (c :: ·)

/-- The digits of a decimal whole number. -/
def wholeDigits? (s : List Char) : Option (List Char) :=
  if s.head? = some '0' && 1 < s.length then none else ungrouped? isDigit s

/-- Takes a sign off a word. -/
def unsigned (s : List Char) : Bool × List Char :=
  match s with
  | '-' :: rest => (true, rest)
  | '+' :: rest => (false, rest)
  | rest => (false, rest)

/-- A number in the given base. -/
def based? (base : Nat) (s : List Char) : Option Int :=
  (ungrouped? (fun c => (digitIn? base c).isSome) s).bind fun digits =>
    (digits? base digits).map Int.ofNat

/-- A whole number. -/
def integer? (s : List Char) : Option Int :=
  match s with
  | '0' :: 'x' :: rest => based? 16 rest
  | '0' :: 'o' :: rest => based? 8 rest
  | '0' :: 'b' :: rest => based? 2 rest
  | _ =>
    let (negative, rest) := unsigned s
    (wholeDigits? rest).map fun digits =>
      if negative then -(decimalValue digits : Int) else decimalValue digits

/-- The exponent behind a number: `e` or `E`, an optional sign, and digits. -/
def exponentOf? (s : List Char) : Option Int :=
  match s with
  | c :: rest =>
    if c = 'e' || c = 'E' then
      let (negative, rest) := unsigned rest
      (ungrouped? isDigit rest).map fun digits =>
        if negative then -(decimalValue digits : Int) else decimalValue digits
    else none
  | [] => none

/-- A number with a fraction, an exponent or both, as its digits and the exponent of the last. -/
def fractional? (s : List Char) : Option (Nat × Int) := do
  let isGrouped (c : Char) : Bool := isDigit c || c = '_'
  let whole ← wholeDigits? (s.takeWhile isGrouped)
  match s.dropWhile isGrouped with
  | '.' :: rest =>
    let fraction ← ungrouped? isDigit (rest.takeWhile isGrouped)
    let exponent ← match rest.dropWhile isGrouped with
      | [] => some 0
      | rest => exponentOf? rest
    some (decimalValue (whole ++ fraction), exponent - fraction.length)
  | rest => do
    let exponent ← exponentOf? rest
    some (decimalValue whole, exponent)

/-- A number with a fraction or exponent, or a special number.  One that is too large is none. -/
def float? (s : List Char) : Option FloatValue :=
  let (negative, s) := unsigned s
  if s == "inf".toList then some (.infinite negative)
  else if s == "nan".toList then some .nan
  else (fractional? s).bind fun (digits, exponent) =>
    (Binary64.ofDecimal? negative digits exponent).map .finite

/-- Whether a whole number takes at most 128 bits, with or without a sign. -/
def fits128 (n : Int) : Bool := -(Nat.pow 2 127) ≤ n && n < Nat.pow 2 128

/-- The value of a word. -/
def word? (s : List Char) : Option Scalar :=
  if s == "true".toList then some (.bool true)
  else if s == "false".toList then some (.bool false)
  else match integer? s with
    | some n => if fits128 n then some (.integer n) else none
    | none =>
      match float? s with
      | some x => some (.float x)
      | none => (Datetime.parse? s).map .datetime

/-- The word at the start of a text.  A space belongs to it between a date and a time. -/
def takeWord (s : List Char) : List Char × List Char :=
  let word := s.takeWhile isWordChar
  match date? word, s.dropWhile isWordChar with
  | some (_, []), ' ' :: c :: rest =>
    if isDigit c then
      (word ++ ' ' :: (c :: rest).takeWhile isWordChar, (c :: rest).dropWhile isWordChar)
    else (word, ' ' :: c :: rest)
  | _, rest => (word, rest)

/-! ## Texts -/

/-- Control characters that no text and no comment holds: all but the tab. -/
def isForbidden (c : Char) : Bool := (c.toNat < 0x20 && c != '\t') || c.toNat == 0x7F

/-- The character of a code point, which is not a surrogate. -/
def charOf? (n : Nat) : Option Char :=
  if h : n.isValidChar then some (Char.ofNatAux n h) else none

/-- The character that `width` hexadecimal digits name. -/
def hexEscape? (width : Nat) (s : List Char) : Option (Char × List Char) :=
  if (s.take width).length < width then none
  else (digits? 16 (s.take width)).bind fun n => (charOf? n).map (·, s.drop width)

/-- The character that an escape stands for, given what follows the backslash. -/
def escape? (s : List Char) : Option (Char × List Char) :=
  match s with
  | 'b' :: rest => some ('\x08', rest)
  | 't' :: rest => some ('\t', rest)
  | 'n' :: rest => some ('\n', rest)
  | 'f' :: rest => some ('\x0c', rest)
  | 'r' :: rest => some ('\r', rest)
  | 'e' :: rest => some ('\x1b', rest)
  | '"' :: rest => some ('"', rest)
  | '\\' :: rest => some ('\\', rest)
  | 'x' :: rest => hexEscape? 2 rest
  | 'u' :: rest => hexEscape? 4 rest
  | 'U' :: rest => hexEscape? 8 rest
  | _ => none

/-- The characters between quotes on one line, and what follows the closing quote.  `escapes` says
whether the backslash escapes. -/
def lineText? (quote : Char) (escapes : Bool) :
    (fuel : Nat) → List Char → Option (List Char × List Char)
  | 0, _ => none
  | _, [] => none
  | fuel + 1, c :: rest =>
    if c = quote then some ([], rest)
    else if c = '\\' && escapes then do
      let (c, rest) ← escape? rest
      let (text, rest) ← lineText? quote escapes fuel rest
      some (c :: text, rest)
    else if isForbidden c then none
    else do
      let (text, rest) ← lineText? quote escapes fuel rest
      some (c :: text, rest)

/-- What follows a line break at the start of a text, if there is one. -/
def dropBreak? (s : List Char) : Option (List Char) :=
  match s with
  | '\n' :: rest => some rest
  | '\r' :: '\n' :: rest => some rest
  | _ => none

/-- Whether a character is a space or a tab. -/
def isSpace (c : Char) : Bool := c = ' ' || c = '\t'

/-- A text without the spaces and line breaks at its start. -/
def skipSpace : List Char → List Char
  | [] => []
  | '\r' :: '\n' :: rest => skipSpace rest
  | c :: rest => if isSpace c || c = '\n' then skipSpace rest else c :: rest

/-- The characters between triple quotes, and what follows the closing ones.  Up to two quotes may
stand before those, and a backslash at the end of a line removes the space up to the next
character. -/
def blockText? (quote : Char) (escapes : Bool) :
    (fuel : Nat) → List Char → Option (List Char × List Char)
  | 0, _ => none
  | _, [] => none
  | fuel + 1, c :: rest =>
    if c = quote then
      let quotes := (c :: rest).takeWhile (· == quote)
      let after := (c :: rest).dropWhile (· == quote)
      if quotes.length < 3 then do
        let (text, rest) ← blockText? quote escapes fuel after
        some (quotes ++ text, rest)
      else if quotes.length ≤ 5 then some (quotes.drop 3, after)
      else none
    else if c = '\\' && escapes then
      match dropBreak? (rest.dropWhile isSpace) with
      | some after => blockText? quote escapes fuel (skipSpace after)
      | none => do
        let (c, rest) ← escape? rest
        let (text, rest) ← blockText? quote escapes fuel rest
        some (c :: text, rest)
    else
      match dropBreak? (c :: rest) with
      | some after => do
        let lineBreak := (c :: rest).take (rest.length + 1 - after.length)
        let (text, rest) ← blockText? quote escapes fuel after
        some (lineBreak ++ text, rest)
      | none =>
        if isForbidden c then none
        else do
          let (text, rest) ← blockText? quote escapes fuel rest
          some (c :: text, rest)

/-- Whether a character opens a text. -/
def isQuote (c : Char) : Bool := c = '"' || c = '\x27'

/-- A text on one line, given its quote and what follows that. -/
def quotedLine? (quote : Char) (s : List Char) : Option (String × List Char) :=
  (lineText? quote (quote = '"') (s.length + 1) s).map fun (text, rest) =>
    (String.ofList text, rest)

/-- A text, given its quote and what follows that.  A line break right behind triple quotes does
not belong to the text. -/
def quoted? (quote : Char) (s : List Char) : Option (String × List Char) :=
  match dropStart? [quote, quote] s with
  | some s =>
    let s := (dropBreak? s).getD s
    (blockText? quote (quote = '"') (s.length + 1) s).map fun (text, rest) =>
      (String.ofList text, rest)
  | none => quotedLine? quote s

end WorkerGen.Toml
