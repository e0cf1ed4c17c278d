import WorkerGen.Number.Digits

/-!
# What a plain scalar means

A scalar without quotes may be null, a truth value, a whole number, a number with a fraction or
exponent, or else a text.  The rules are those of the core schema, with these decisions:

* a whole number may have a sign and is decimal, hexadecimal, octal or binary; a decimal one that
  begins with `0` before another digit is a text;
* numbers that need more than 64 bits are told apart, since not every reader takes them;
* a number that is too large for binary64 is a text.
-/

namespace WorkerGen.Yaml

open WorkerGen.Text

/-- The meaning of a scalar. -/
inductive Meaning where
  | null
  | bool (value : Bool)
  /-- A natural number below `2 ^ 64`. -/
  | natural (value : Nat)
  /-- A whole number of 64 bits that is written with a minus sign. -/
  | negative (value : Int)
  /-- A natural number of more than 64 and at most 128 bits. -/
  | wideNatural (value : Nat)
  /-- A negative number of more than 64 and at most 128 bits. -/
  | wideNegative (value : Int)
  | float (value : FloatValue)
  | text (value : String)
deriving DecidableEq, Inhabited

namespace Meaning

/-- Whether a text is one of the words for null. -/
def isNullWord (s : List Char) : Bool :=
  s == "null".toList || s == "Null".toList || s == "NULL".toList || s == ['~']

/-- The truth value that a word stands for. -/
def boolOf? (s : List Char) : Option Bool :=
  if s == "true".toList || s == "True".toList || s == "TRUE".toList then some true
  else if s == "false".toList || s == "False".toList || s == "FALSE".toList then some false
  else none

/-- Whether a text is digits of which the first is a zero before others. -/
def hasLeadingZero (s : List Char) : Bool :=
  let s := match s with
    | '-' :: rest => rest
    | '+' :: rest => rest
    | rest => rest
  match s with
  | '0' :: c :: rest => (c :: rest).all isDigit
  | _ => false

/-- A number with the prefix of its base. -/
def based? (s : List Char) : Option Nat :=
  match s with
  | '0' :: 'x' :: rest => digits? 16 rest
  | '0' :: 'o' :: rest => digits? 8 rest
  | '0' :: 'b' :: rest => digits? 2 rest
  | _ => none

/-- A natural number, which may have a plus sign. -/
def natural? (s : List Char) : Option Nat :=
  let unsigned := match s with
    | '+' :: rest => rest
    | rest => rest
  match based? unsigned with
  | some n => some n
  | none => if hasLeadingZero s then none else digits? 10 unsigned

/-- The magnitude of a number with a minus sign. -/
def minus? (s : List Char) : Option Nat :=
  match s with
  | '-' :: rest =>
    match based? rest with
    | some n => some n
    | none => if hasLeadingZero s then none else digits? 10 rest
  | _ => none

/-- A whole number.  Naturals are looked for first, and 64 bits before 128. -/
def integer? (s : List Char) : Option Meaning :=
  match natural? s, minus? s with
  | some n, _ =>
    if n < Nat.pow 2 64 then some (.natural n)
    else if n < Nat.pow 2 128 then some (.wideNatural n)
    else none
  | none, some n =>
    if n ≤ Nat.pow 2 63 then some (.negative (-(n : Int)))
    else if n ≤ Nat.pow 2 127 then some (.wideNegative (-(n : Int)))
    else none
  | none, none => none

/-- A number with a fraction or exponent, or a special number. -/
def float? (s : List Char) : Option FloatValue :=
  let signed (minus : Bool) (s : List Char) : Option FloatValue :=
    if s == ".inf".toList || s == ".Inf".toList || s == ".INF".toList then
      some (.infinite minus)
    else (decimal? s).bind fun (digits, exponent) =>
      (Binary64.ofDecimal? minus digits exponent).map .finite
  if s == ".nan".toList || s == ".NaN".toList || s == ".NAN".toList then some .nan
  else match s with
    | '+' :: rest => signed false rest
    | '-' :: rest => signed true rest
    | rest => signed false rest

/-- The meaning of a plain scalar. -/
def ofPlain (text : String) : Meaning :=
  let s := text.toList
  if s.isEmpty || isNullWord s then .null
  else match boolOf? s with
    | some b => .bool b
    | none =>
      match integer? s with
      | some n => n
      | none =>
        match if hasLeadingZero s then none else float? s with
        | some x => .float x
        | none => .text text

end Meaning

end WorkerGen.Yaml
