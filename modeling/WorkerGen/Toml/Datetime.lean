import WorkerGen.Number.Digits

/-!
# Dates and times

A date, a time, or both, the latter with an optional offset from universal time.  A date and time
are separated by `T` or a space when read and by `T` when written.  Seconds may be left out, and of
a fraction nine digits count.

Dates and times are kept by their numbers and written in one form, so that a text that is read and
written again may look different.
-/

namespace WorkerGen.Toml

open WorkerGen.Text

/-- A day. -/
structure Date where
  year : Nat
  month : Nat
  day : Nat
deriving DecidableEq

/-- A time of day. -/
structure Time where
  hour : Nat
  minute : Nat
  /-- Sixty is allowed, for leap seconds. -/
  second : Option Nat
  nanosecond : Option Nat
deriving DecidableEq

/-- The distance from universal time. -/
inductive Offset where
  | universal
  | minutes (value : Int)
deriving DecidableEq

/-- A date, a time, or both. -/
inductive Datetime where
  | date (date : Date)
  | time (time : Time)
  | both (date : Date) (time : Time) (offset : Option Offset)
deriving DecidableEq

/-! ## Reading -/

/-- Whether a year has a 29th of February. -/
def isLeapYear (year : Nat) : Bool := year % 4 == 0 && (year % 100 != 0 || year % 400 == 0)

/-- How many days a month has. -/
def daysIn (year month : Nat) : Nat :=
  if month = 2 then if isLeapYear year then 29 else 28
  else if month = 4 || month = 6 || month = 9 || month = 11 then 30
  else 31

/-- The number of exactly `count` digits at the start of a text, and what follows them. -/
def fixedDigits? (count : Nat) (s : List Char) : Option (Nat × List Char) :=
  let digits := s.takeWhile isDigit
  if digits.length = count then some (decimalValue digits, s.drop count) else none

/-- A date at the start of a text. -/
def date? (s : List Char) : Option (Date × List Char) := do
  let (year, s) ← fixedDigits? 4 s
  let s ← dropStart? ['-'] s
  let (month, s) ← fixedDigits? 2 s
  let s ← dropStart? ['-'] s
  let (day, s) ← fixedDigits? 2 s
  if 1 ≤ month && month ≤ 12 && 1 ≤ day && day ≤ daysIn year month then
    some (⟨year, month, day⟩, s)
  else none

/-- The nanoseconds that the digits of a fraction stand for. -/
def nanoseconds (digits : List Char) : Nat :=
  let digits := digits.take 9
  decimalValue digits * Nat.pow 10 (9 - digits.length)

/-- The seconds of a time, if they are there, and their fraction. -/
def seconds? (s : List Char) : Option (Option Nat × Option Nat × List Char) :=
  match s with
  | ':' :: s => do
    let (second, s) ← fixedDigits? 2 s
    if 60 < second then none
    match s with
    | '.' :: s =>
      let digits := s.takeWhile isDigit
      if digits.isEmpty then none
      else some (some second, some (nanoseconds digits), s.dropWhile isDigit)
    | s => some (some second, none, s)
  | s => some (none, none, s)

/-- A time at the start of a text. -/
def time? (s : List Char) : Option (Time × List Char) := do
  let (hour, s) ← fixedDigits? 2 s
  let s ← dropStart? [':'] s
  let (minute, s) ← fixedDigits? 2 s
  let (second, nanosecond, s) ← seconds? s
  if hour ≤ 23 && minute ≤ 59 then some (⟨hour, minute, second, nanosecond⟩, s) else none

/-- An offset, which is all of a text. -/
def offset? (s : List Char) : Option (Option Offset) :=
  let distance (sign : Int) (s : List Char) : Option (Option Offset) := do
    let (hours, s) ← fixedDigits? 2 s
    let s ← dropStart? [':'] s
    let (minutes, s) ← fixedDigits? 2 s
    if s.isEmpty && hours ≤ 23 && minutes ≤ 59 then
      some (some (.minutes (sign * (hours * 60 + minutes : Nat))))
    else none
  match s with
  | [] => some none
  | ['Z'] | ['z'] => some (some .universal)
  | '+' :: s => distance 1 s
  | '-' :: s => distance (-1) s
  | _ => none

/-- A date, a time or both, which are all of a text. -/
def Datetime.parse? (s : List Char) : Option Datetime :=
  match date? s with
  | some (d, []) => some (.date d)
  | some (d, separator :: s) =>
    if separator == 'T' || separator == 't' || separator == ' ' then do
      let (t, s) ← time? s
      let offset ← offset? s
      some (.both d t offset)
    else none
  | none => do
    let (t, s) ← time? s
    if s.isEmpty then some (.time t) else none

/-! ## Writing -/

/-- A number with zeros in front, to the given width. -/
def padded (width n : Nat) : String :=
  let digits := toString n
  "".pushn '0' (width - digits.length) ++ digits

/-- The text of a date. -/
def Date.text (d : Date) : String :=
  padded 4 d.year ++ "-" ++ padded 2 d.month ++ "-" ++ padded 2 d.day

/-- The digits of a fraction, without zeros at the end; one stays. -/
def fractionText (nanosecond : Nat) : String :=
  let digits := ((padded 9 nanosecond).toList.reverse.dropWhile (· == '0')).reverse
  if digits.isEmpty then "0" else String.ofList digits

/-- The text of a time. -/
def Time.text (t : Time) : String :=
  padded 2 t.hour ++ ":" ++ padded 2 t.minute ++ ((t.second.map (":" ++ padded 2 ·)).getD "") ++
    ((t.nanosecond.map ("." ++ fractionText ·)).getD "")

/-- The text of an offset. -/
def Offset.text : Offset → String
  | .universal => "Z"
  | .minutes n =>
    (if n < 0 then "-" else "+") ++ padded 2 (n.natAbs / 60) ++ ":" ++ padded 2 (n.natAbs % 60)

/-- The text of a date, a time or both. -/
def Datetime.text : Datetime → String
  | .date d => d.text
  | .time t => t.text
  | .both d t o => d.text ++ "T" ++ t.text ++ ((o.map Offset.text).getD "")

end WorkerGen.Toml
