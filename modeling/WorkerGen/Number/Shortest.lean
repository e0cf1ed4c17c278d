import WorkerGen.Number.Binary64

/-!
# The fewest digits that read back

`Decimal.shortest` gives the decimal with the fewest digits that reads back as a given binary64
magnitude, and of those with equally many digits the one nearest to it.  On the grid of the
decimals with a given number of digits only the two neighbours of the magnitude can be nearest to
it, so the search tries these two for 1, 2, … 17 digits.

The layouts turn digits and an exponent into text:

* `Layout.json` — positional between `10 ^ -5` and `10 ^ 16`, else with a signed exponent;
* `Layout.plain` — always positional.
-/

namespace WorkerGen

/-- The decimal `digits * 10 ^ exponent`. -/
structure Decimal where
  digits : Nat
  exponent : Int
deriving DecidableEq, Inhabited

namespace Decimal

open Binary64 (unitExponent)

/-- The magnitude of `units` divided by `10 ^ exponent`, as numerator and denominator. -/
def scaled (units : Nat) (exponent : Int) : Nat × Nat :=
  if 0 ≤ exponent then (units, Nat.pow 2 unitExponent * Nat.pow 10 exponent.toNat)
  else (units * Nat.pow 10 (-exponent).toNat, Nat.pow 2 unitExponent)

/-- The exponent of the leading decimal digit of a magnitude that is not zero. -/
def leadingExponent (units : Nat) : Int :=
  (Binary64.decimalLength (units * Nat.pow 10 400 / Nat.pow 2 unitExponent) : Int) - 401

/-- Whether a decimal reads back as a pattern. -/
def readsBack (pattern : Nat) (d : Decimal) : Bool :=
  Binary64.decimalPattern d.digits d.exponent == pattern

/-- The first of two decimals that reads back as a pattern. -/
def firstOf? (pattern : Nat) (first second : Decimal) : Option Decimal :=
  if readsBack pattern first then some first
  else if readsBack pattern second then some second
  else none

/-- Of the two neighbours of `num / den` among the decimals with an exponent, the nearer one that
reads back as a pattern, else the other one; a tie goes to the even digit. -/
def neighbour? (pattern num den : Nat) (exponent : Int) : Option Decimal :=
  let below := num / den
  let rest := num % den
  let low : Decimal := ⟨below, exponent⟩
  let high : Decimal := ⟨below + 1, exponent⟩
  if den < 2 * rest || (den == 2 * rest && below % 2 == 1) then firstOf? pattern high low
  else firstOf? pattern low high

/-- The decimal with `count` digits that is nearest to a magnitude, of those that read back as its
pattern. -/
def onGrid? (pattern count : Nat) : Option Decimal :=
  let units := Binary64.patternUnits pattern
  let exponent := leadingExponent units - count + 1
  let fraction := scaled units exponent
  neighbour? pattern fraction.1 fraction.2 exponent

/-- All the digits of a magnitude, for a magnitude that no grid up to 17 digits holds. -/
def exact (pattern : Nat) : Decimal :=
  ⟨Binary64.patternUnits pattern * Nat.pow 5 unitExponent, -unitExponent⟩

/-- The decimal with the fewest digits that reads back as a pattern: the first hit among the grids
of 1, 2, … 17 digits. -/
def shortest (pattern : Nat) : Decimal :=
  if pattern = 0 then ⟨0, 0⟩
  else ((List.range' 1 17).findSome? (onGrid? pattern)).getD (exact pattern)

/-- The same decimal without trailing zeros among its digits. -/
def normalize : Nat → Decimal → Decimal
  | 0, d => d
  | fuel + 1, d =>
    if d.digits ≠ 0 && d.digits % 10 == 0 then normalize fuel ⟨d.digits / 10, d.exponent + 1⟩ else d

end Decimal

/-- The digits of a natural number. -/
def decimalDigits (n : Nat) : List Char := Nat.toDigits 10 n

/-! ## Layouts

A layout decides between positional digits and an exponent by where the point would stand. -/

/-- Where a layout writes a number with an exponent: when the point would stand left of `least` or
right of `most` places from the start of the digits. -/
structure Layout where
  least : Int
  most : Int

namespace Layout

/-- The layout of numbers in JSON text: positional from `0.00001` up to below `1e+16`. -/
def json : Layout := ⟨-4, 16⟩

/-- The positional layout, for any exponent. -/
def plain : Layout := ⟨-400, 400⟩

/-- The text of a decimal.  `point` is the place of the decimal point from the start of the
digits; a whole number ends in `.0`, and an exponent has a sign and no leading zeros. -/
def text (layout : Layout) (d : Decimal) : List Char :=
  if d.digits = 0 then ['0', '.', '0']
  else
    let digits := decimalDigits d.digits
    let count := digits.length
    let point := d.exponent + count
    if layout.least ≤ point && point ≤ layout.most then
      if 0 ≤ d.exponent then digits ++ List.replicate d.exponent.toNat '0' ++ ['.', '0']
      else if 0 < point then digits.take point.toNat ++ ['.'] ++ digits.drop point.toNat
      else ['0', '.'] ++ List.replicate (-point).toNat '0' ++ digits
    else
      let exponent := point - 1
      let lead := digits.take 1
      let rest := digits.drop 1
      lead ++ (if rest = [] then [] else '.' :: rest) ++
        (if exponent < 0 then ['e', '-'] else ['e', '+']) ++ decimalDigits exponent.natAbs

end Layout

/-- The text of a binary64 number in a layout, with the sign also on zero. -/
def Binary64.text (layout : Layout) (x : Binary64) : List Char :=
  (if x.negative then ['-'] else []) ++
    layout.text ((Decimal.shortest x.pattern).normalize 400)

end WorkerGen
