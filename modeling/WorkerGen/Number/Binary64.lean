/-!
# Finite binary64 numbers, exactly

A finite binary64 number is its sign and the 63 bits of its magnitude.  Read as a natural number,
those bits count the magnitudes below it, so that neighbouring numbers have neighbouring patterns
and rounding up is adding one.  Every magnitude is a whole number of *units* of `2 ^ -1074`, hence
all of reading and printing is arithmetic on natural numbers.

* `Binary64.units` — the magnitude in units.
* `nearestPattern` — the pattern nearest to a quotient of natural numbers, ties to even.
* `Binary64.ofDecimal?` — the number nearest to a decimal, if that is finite.
-/

namespace WorkerGen

/-- A finite binary64 number: its sign and the bits of its magnitude. -/
structure Binary64 where
  negative : Bool
  pattern : Nat
  finite : pattern < 2047 * Nat.pow 2 52
deriving DecidableEq

namespace Binary64

/-- Zero, without a sign. -/
def zero : Binary64 := ⟨false, 0, by decide⟩

instance : Inhabited Binary64 := ⟨zero⟩

/-- The exponent of a unit: one is `2 ^ unitExponent` units. -/
def unitExponent : Nat := 1074

/-- The significand that a pattern stands for: below `2 ^ 52` the pattern itself, and from there
on its last 52 bits with the leading bit that is not stored. -/
def patternSignificand (pattern : Nat) : Nat :=
  if pattern < Nat.pow 2 52 then pattern else Nat.pow 2 52 + pattern % Nat.pow 2 52

/-- The magnitude of a pattern in units of `2 ^ -1074`. -/
def patternUnits (pattern : Nat) : Nat :=
  patternSignificand pattern * Nat.pow 2 (pattern / Nat.pow 2 52 - 1)

/-- The magnitude in units of `2 ^ -1074`. -/
def units (x : Binary64) : Nat := patternUnits x.pattern

/-- The pattern whose magnitude is nearest to `num / den` units; of two that are equally near, the
even one.  The pattern may lie beyond the finite ones. -/
def nearestPattern (num den : Nat) : Nat :=
  let whole := num / den
  let shift := Nat.log2 whole - 52
  let significand := whole / Nat.pow 2 shift
  let low := shift * Nat.pow 2 52 + significand
  let rest := num - significand * Nat.pow 2 shift * den
  let half := Nat.pow 2 shift * den
  if half < 2 * rest || (half == 2 * rest && low % 2 == 1) then low + 1 else low

/-- The number of a pattern, if that is finite. -/
def ofPattern? (negative : Bool) (pattern : Nat) : Option Binary64 :=
  if h : pattern < 2047 * Nat.pow 2 52 then some ⟨negative, pattern, h⟩ else none

/-- How many decimal digits a number has; zero has one. -/
def decimalLength (n : Nat) : Nat := (Nat.toDigits 10 n).length

/-- The pattern nearest to `digits * 10 ^ exponent`.  Exponents far outside the range of finite
numbers are decided without computing the power: beyond `10 ^ 400` everything is too large, and
below `10 ^ -400` everything is nearest to zero. -/
def decimalPattern (digits : Nat) (exponent : Int) : Nat :=
  if digits = 0 then 0
  else if 400 < exponent then 2047 * Nat.pow 2 52
  else if exponent + decimalLength digits < -400 then 0
  else if 0 ≤ exponent then
    nearestPattern (digits * Nat.pow 10 exponent.toNat * Nat.pow 2 unitExponent) 1
  else nearestPattern (digits * Nat.pow 2 unitExponent) (Nat.pow 10 (-exponent).toNat)

/-- The number nearest to a decimal, unless the decimal is too large for a finite number. -/
def ofDecimal? (negative : Bool) (digits : Nat) (exponent : Int) : Option Binary64 :=
  ofPattern? negative (decimalPattern digits exponent)

end Binary64

end WorkerGen
