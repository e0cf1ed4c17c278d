import WorkerGen.Number.Binary64
import WorkerGen.Text.Class

/-!
# Reading numbers

The written forms of numbers that the input formats share: digits in a base, and decimal numbers
with a point and an exponent.
-/

namespace WorkerGen

open Text

/-- A number with a fraction or exponent, or one of the special numbers. -/
inductive FloatValue where
  | finite (value : Binary64)
  | infinite (negative : Bool)
  | nan
deriving DecidableEq, Inhabited

/-- The value of a digit in a base. -/
def digitIn? (base : Nat) (c : Char) : Option Nat :=
  (hexValue? c).bind fun d => if d < base then some d else none

/-- The number that digits in a base stand for; there has to be one. -/
def digits? (base : Nat) (s : List Char) : Option Nat :=
  if s.isEmpty then none
  else s.foldlM (fun n c => (digitIn? base c).map (base * n + ·)) 0

/-- The number that decimal digits stand for, or zero for none. -/
def decimalValue (s : List Char) : Nat :=
  s.foldl (fun n c => 10 * n + (c.toNat - 48)) 0

/-- The exponent of a number: `e` or `E`, an optional sign, and digits. -/
def exponent? (s : List Char) : Option Int :=
  match s with
  | [] => some 0
  | c :: rest =>
    if c == 'e' || c == 'E' then
      let (minus, digits) := match rest with
        | '-' :: digits => (true, digits)
        | '+' :: digits => (false, digits)
        | digits => (false, digits)
      if digits.isEmpty || !digits.all isDigit then none
      else some (if minus then -(decimalValue digits : Int) else decimalValue digits)
    else none

/-- A decimal number: digits before or after a point or both, and an optional exponent.  The
answer is the digits as one number and the exponent of its last digit. -/
def decimal? (s : List Char) : Option (Nat × Int) := do
  let whole := s.takeWhile isDigit
  let rest := s.dropWhile isDigit
  let (fraction, rest) := match rest with
    | '.' :: rest => (rest.takeWhile isDigit, rest.dropWhile isDigit)
    | rest => ([], rest)
  if whole.isEmpty && fraction.isEmpty then none
  let exponent ← exponent? rest
  some (decimalValue (whole ++ fraction), exponent - fraction.length)

end WorkerGen
