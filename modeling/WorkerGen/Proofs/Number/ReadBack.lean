import Mathlib
import WorkerGen.Number.Digits
import WorkerGen.Proofs.Number.Rounding

/-!
# Numbers read back

A binary64 number is written with the fewest digits that read back.  This file shows that they do:
reading the text of a number gives the number, sign included (`read?_text`), and so two numbers with
the same text are the same number.

The way from a pattern to its text has three stages, each with its lemma.

* The search for the digits ends with a decimal that is rounded to the pattern
  (`decimalPattern_shortest`), also where it gives up and takes all digits.
* Trailing zeros are dropped, which moves them into the exponent (`pads_normalize`).
* The layout writes digits and exponent so that `decimal?` finds them again, or finds the same value
  with its zeros among the digits (`decimal?_text`).

That the digits are the fewest is not needed.  The search tests each candidate by reading it back,
so whatever it finds is right, and only the fallback has to be looked at by itself: all the digits
of a magnitude are its exact value, and rounding changes nothing.

Between the stages stands a decimal, digits with an exponent.  Two of them are taken for the same if
one has zeros among its digits that the exponent of the other stands for (`Pads`), and rounding does
not tell them apart (`decimalPattern_pad`).
-/

namespace WorkerGen

open Text Binary64

/-! ## Digits -/

lemma isDigit_of_mem_decimalDigits {n : ℕ} {c : Char} (h : c ∈ decimalDigits n) :
    isDigit c = true := by
  have := Nat.isDigit_of_mem_toDigits (by norm_num) (by norm_num) h
  simpa [Char.isDigit, isDigit, Char.le_def] using this

lemma decimalValue_decimalDigits (n : ℕ) : decimalValue (decimalDigits n) = n :=
  Nat.ofDigitChars_ten_toDigits

lemma decimalDigits_injective : Function.Injective decimalDigits := by
  intro n m h
  rw [← decimalValue_decimalDigits n, h, decimalValue_decimalDigits]

lemma decimalValue_eq_ofDigitChars (s : List Char) :
    decimalValue s = Nat.ofDigitChars 10 s 0 := rfl

lemma decimalValue_append_zeros (s : List Char) (k : ℕ) :
    decimalValue (s ++ List.replicate k '0') = decimalValue s * 10 ^ k := by
  rw [decimalValue_eq_ofDigitChars, Nat.ofDigitChars_append, Nat.ofDigitChars_replicate_zero,
    mul_comm, ← decimalValue_eq_ofDigitChars]

lemma decimalValue_zeros_append (s : List Char) (k : ℕ) :
    decimalValue (List.replicate k '0' ++ s) = decimalValue s := by
  rw [decimalValue_eq_ofDigitChars, Nat.ofDigitChars_append, Nat.ofDigitChars_replicate_zero,
    mul_zero, ← decimalValue_eq_ofDigitChars]

lemma isDigit_of_mem_zeros {k : ℕ} {c : Char} (h : c ∈ List.replicate k '0') :
    isDigit c = true := by
  rw [List.eq_of_mem_replicate h]
  decide

/-! ## The search for the digits

The search tries one number of digits after another and ends with the first decimal that reads back,
or with all digits. -/

namespace Decimal

lemma decimalPattern_of_readsBack {p : ℕ} {d : Decimal} (h : readsBack p d = true) :
    decimalPattern d.digits d.exponent = p := by
  simpa [readsBack] using h

lemma readsBack_of_firstOf? {p : ℕ} {first second d : Decimal}
    (h : firstOf? p first second = some d) : readsBack p d = true := by
  rw [firstOf?] at h
  split_ifs at h with hfirst hsecond
  · exact Option.some_inj.mp h ▸ hfirst
  · exact Option.some_inj.mp h ▸ hsecond

lemma readsBack_of_neighbour? {p num den : ℕ} {exponent : ℤ} {d : Decimal}
    (h : neighbour? p num den exponent = some d) : readsBack p d = true := by
  unfold neighbour? at h
  extract_lets at h
  split_ifs at h
  · exact readsBack_of_firstOf? h
  · exact readsBack_of_firstOf? h

/-- All the digits of a magnitude are rounded to it.  They need no limits: the exponent is far
from the least one, because there are so many of them. -/
lemma decimalPattern_exact {p : ℕ} (hp : patternUnits p ≠ 0) :
    decimalPattern (exact p).digits (exact p).exponent = p := by
  obtain ⟨j, hj, hlarge⟩ : ∃ j, unitExponent = 3 * j ∧ 337 ≤ j := ⟨358, rfl, by norm_num⟩
  obtain ⟨l, hl⟩ : ∃ l, l = 673 := ⟨_, rfl⟩
  have hlength : l < decimalLength (patternUnits p * 5 ^ unitExponent) := by
    by_contra hshort
    have hbound : patternUnits p * 5 ^ unitExponent < 10 ^ l :=
      (Nat.length_toDigits_le_iff (by norm_num) (by omega)).mp (not_lt.mp hshort)
    have hpow : 10 ^ (2 * j) ≤ 5 ^ unitExponent := by
      rw [hj, pow_mul, pow_mul]
      exact Nat.pow_le_pow_left (by norm_num) j
    have hle : 10 ^ l ≤ 10 ^ (2 * j) := Nat.pow_le_pow_right (by norm_num) (by omega)
    have := Nat.le_mul_of_pos_left (5 ^ unitExponent) (Nat.pos_of_ne_zero hp)
    omega
  have hexp : (unitExponent : ℤ) = 1074 := rfl
  have hlimit : -(unitExponent : ℤ) ≤ 400 := by omega
  have hscale : (-(unitExponent : ℤ)).toNat = 0 := by omega
  have hden : (- -(unitExponent : ℤ)).toNat = unitExponent := by omega
  have hlow : -400 ≤ -(unitExponent : ℤ) + decimalLength (patternUnits p * 5 ^ unitExponent) := by
    omega
  have hdigits : patternUnits p * 5 ^ unitExponent ≠ 0 := by positivity
  have hquotient := decimalPattern_eq hdigits hlimit hlow
  rw [hscale, hden, pow_zero, mul_one] at hquotient
  rw [exact, Nat.pow_eq, hquotient]
  conv_rhs => rw [← nearestPattern_units p]
  refine nearestPattern_congr (by positivity) one_pos ?_
  rw [mul_one, mul_assoc, ← mul_pow, show 5 * 2 = 10 from rfl]

/-- **The shortest digits read back.** -/
theorem decimalPattern_shortest (p : ℕ) :
    decimalPattern (shortest p).digits (shortest p).exponent = p := by
  rw [shortest]
  split
  case isTrue h => simp [decimalPattern, h]
  case isFalse h =>
    cases hgrids : (List.range' 1 17).findSome? (onGrid? p) with
    | some d =>
        obtain ⟨count, -, hcount⟩ := List.exists_of_findSome?_eq_some hgrids
        exact decimalPattern_of_readsBack (readsBack_of_neighbour? hcount)
    | none =>
        have hunits : patternUnits p ≠ 0 := by
          simp only [patternUnits, patternSignificand, Nat.pow_eq]
          split <;> positivity
        exact decimalPattern_exact hunits

/-! ## Zeros between digits and exponent

Moving a zero into the exponent changes neither the value nor what it is rounded to. -/

/-- The first decimal is the second with some of the zeros that its exponent stands for among its
digits. -/
def Pads (d e : Decimal) : Prop :=
  ∃ k : ℕ, d.digits = e.digits * 10 ^ k ∧ e.exponent = d.exponent + k

lemma Pads.refl (d : Decimal) : Pads d d := ⟨0, by simp, by simp⟩

lemma pads_normalize : ∀ (fuel : ℕ) (d : Decimal), Pads d (normalize fuel d)
  | 0, d => Pads.refl d
  | fuel + 1, d => by
      rw [normalize]
      split
      case isTrue h =>
        obtain ⟨k, hdigits, hexponent⟩ := pads_normalize fuel ⟨d.digits / 10, d.exponent + 1⟩
        simp only [ne_eq, Bool.and_eq_true, decide_eq_true_eq, beq_iff_eq] at h
        refine ⟨k + 1, ?_, by rw [hexponent]; push_cast; ring⟩
        rw [pow_succ, ← mul_assoc, ← hdigits]
        exact (Nat.div_mul_cancel (Nat.dvd_of_mod_eq_zero h.2)).symm
      case isFalse => exact Pads.refl d

end Decimal

/-! ## Reading the layouts

There are five layouts, by where the point goes relative to the digits and whether there is an
exponent.  Each has its lemma, and all of them use that digits end where something else begins
(`Ends`). -/

lemma decimalDigits_all_isDigit (n : ℕ) : (decimalDigits n).all isDigit = true :=
  List.all_eq_true.mpr fun _ hc => isDigit_of_mem_decimalDigits hc

lemma decimalDigits_ne_nil (n : ℕ) : decimalDigits n ≠ [] := Nat.toDigits_ne_nil

lemma exponent?_signed (x : ℤ) :
    exponent? ((if x < 0 then ['e', '-'] else ['e', '+']) ++ decimalDigits x.natAbs) = some x := by
  have hne : (decimalDigits x.natAbs).isEmpty = false := by
    simpa using decimalDigits_ne_nil x.natAbs
  split
  case isTrue h =>
    simp [exponent?, hne, decimalDigits_all_isDigit, decimalValue_decimalDigits,
      abs_of_neg h]
  case isFalse h =>
    simp [exponent?, hne, decimalDigits_all_isDigit, decimalValue_decimalDigits,
      abs_of_nonneg (not_lt.mp h)]

/-- A tail that does not go on with characters of a class. -/
def Ends (p : Char → Bool) (tail : List Char) : Prop := ∀ c ∈ tail.head?, p c = false

lemma Ends.nil (p : Char → Bool) : Ends p [] := by simp [Ends]

lemma Ends.cons {p : Char → Bool} {c : Char} (h : p c = false) (tail : List Char) :
    Ends p (c :: tail) := by
  simpa [Ends] using h

lemma takeWhile_append_of_ends {p : Char → Bool} {s tail : List Char}
    (hs : ∀ c ∈ s, p c = true) (htail : Ends p tail) : (s ++ tail).takeWhile p = s := by
  rw [List.takeWhile_append_of_pos hs]
  cases tail <;> simp_all [Ends]

lemma dropWhile_append_of_ends {p : Char → Bool} {s tail : List Char}
    (hs : ∀ c ∈ s, p c = true) (htail : Ends p tail) : (s ++ tail).dropWhile p = tail := by
  rw [List.dropWhile_append_of_pos hs]
  cases tail <;> simp_all [Ends]

lemma decimal?_of_fraction {whole fraction tail : List Char} (hne : whole ≠ [])
    (hwhole : ∀ c ∈ whole, isDigit c = true) (hfraction : ∀ c ∈ fraction, isDigit c = true)
    (htail : Ends isDigit tail) :
    decimal? (whole ++ '.' :: (fraction ++ tail)) = (exponent? tail).map fun e : ℤ =>
      (decimalValue (whole ++ fraction), e - fraction.length) := by
  have hpoint : Ends isDigit ('.' :: (fraction ++ tail)) := Ends.cons (by decide) _
  simp only [decimal?, takeWhile_append_of_ends hwhole hpoint,
    dropWhile_append_of_ends hwhole hpoint, takeWhile_append_of_ends hfraction htail,
    dropWhile_append_of_ends hfraction htail]
  cases exponent? tail <;> simp [hne]

lemma decimal?_of_whole {whole tail : List Char} (hne : whole ≠ [])
    (hwhole : ∀ c ∈ whole, isDigit c = true) (htail : Ends isDigit tail)
    (hpoint : tail.head? ≠ some '.') :
    decimal? (whole ++ tail) = (exponent? tail).map fun e : ℤ => (decimalValue whole, e) := by
  simp only [decimal?, takeWhile_append_of_ends hwhole htail, dropWhile_append_of_ends hwhole htail]
  split
  case h_1 => simp at hpoint
  case h_2 => cases exponent? tail <;> simp [hne]

lemma endsDigits_exponent (x : ℤ) (s : List Char) :
    Ends isDigit ((if x < 0 then ['e', '-'] else ['e', '+']) ++ s) := by
  split <;> exact Ends.cons (by decide) _

/-! ### Each layout

In each of the layouts the digits are the same, apart from zeros that are put in front of them or
behind, and the exponent makes up for the place of the point. -/

/-- Digits with a point after the first, or with none if there is only one, and an exponent. -/
lemma decimal?_scientific {digits : List Char} (hne : digits ≠ [])
    (hdigits : ∀ c ∈ digits, isDigit c = true) (x : ℤ) :
    decimal? (digits.take 1 ++ (if digits.drop 1 = [] then [] else '.' :: digits.drop 1) ++
        (if x < 0 then ['e', '-'] else ['e', '+']) ++ decimalDigits x.natAbs)
      = some (decimalValue digits, x - (digits.drop 1).length) := by
  have hread := exponent?_signed x
  have hends := endsDigits_exponent x (decimalDigits x.natAbs)
  have hlead : digits.take 1 ≠ [] := by simpa using hne
  have htake : ∀ c ∈ digits.take 1, isDigit c = true := fun c hc =>
    hdigits c (List.mem_of_mem_take hc)
  have hdrop : ∀ c ∈ digits.drop 1, isDigit c = true := fun c hc =>
    hdigits c (List.mem_of_mem_drop hc)
  by_cases hrest : digits.drop 1 = []
  · have hpoint : ((if x < 0 then ['e', '-'] else ['e', '+']) ++ decimalDigits x.natAbs).head?
        ≠ some '.' := by split <;> simp
    rw [if_pos hrest, List.append_nil, List.append_assoc,
      decimal?_of_whole hlead htake hends hpoint, hread, hrest]
    have hall : digits.take 1 = digits := by
      rw [← List.take_append_drop 1 digits, hrest]
      simp
    simp [hall]
  · rw [if_neg hrest, List.append_assoc, List.append_assoc, List.cons_append,
      decimal?_of_fraction hlead htake hdrop hends, hread, List.take_append_drop]
    rfl

/-- Digits around a point and nothing else. -/
lemma decimal?_positional {whole fraction : List Char} (hne : whole ≠ [])
    (hwhole : ∀ c ∈ whole, isDigit c = true) (hfraction : ∀ c ∈ fraction, isDigit c = true) :
    decimal? (whole ++ '.' :: fraction)
      = some (decimalValue (whole ++ fraction), -(fraction.length : ℤ)) := by
  have hread := decimal?_of_fraction hne hwhole hfraction (Ends.nil isDigit)
  rw [List.append_nil] at hread
  simp [hread, exponent?]

/-- Zeros behind the digits of a whole number become digits, and so does the zero behind the
point. -/
lemma decimal?_zeros_behind {digits : List Char} (hne : digits ≠ [])
    (hdigits : ∀ c ∈ digits, isDigit c = true) (k : ℕ) :
    decimal? (digits ++ List.replicate k '0' ++ ['.', '0'])
      = some (decimalValue digits * 10 ^ (k + 1), -1) := by
  have hwhole : ∀ c ∈ digits ++ List.replicate k '0', isDigit c = true :=
    List.forall_mem_append.mpr ⟨hdigits, fun _ => isDigit_of_mem_zeros⟩
  have hread := decimal?_positional (by simp [hne]) hwhole fun c => isDigit_of_mem_zeros (k := 1)
  have hvalue : decimalValue (digits ++ List.replicate k '0' ++ List.replicate 1 '0')
      = decimalValue digits * 10 ^ (k + 1) := by
    rw [List.append_assoc, List.replicate_append_replicate, decimalValue_append_zeros]
  rw [hvalue] at hread
  exact hread

/-- Zeros between the point and the digits only move the digits. -/
lemma decimal?_zeros_before {digits : List Char} (hdigits : ∀ c ∈ digits, isDigit c = true)
    (k : ℕ) : decimal? (['0', '.'] ++ List.replicate k '0' ++ digits)
      = some (decimalValue digits, -((k + digits.length : ℕ) : ℤ)) := by
  have hfraction : ∀ c ∈ List.replicate k '0' ++ digits, isDigit c = true :=
    List.forall_mem_append.mpr ⟨fun _ => isDigit_of_mem_zeros, hdigits⟩
  have hread := decimal?_positional (List.cons_ne_nil '0' [])
    (fun c => isDigit_of_mem_zeros (k := 1)) hfraction
  rw [← List.append_assoc, show ['0'] = List.replicate 1 '0' from rfl,
    List.replicate_append_replicate, decimalValue_zeros_append, List.length_append,
    List.length_replicate] at hread
  rw [List.append_assoc]
  exact hread

/-- A point among the digits. -/
lemma decimal?_point_inside {digits : List Char} (hdigits : ∀ c ∈ digits, isDigit c = true)
    {k : ℕ} (hk : 0 < k) (hne : digits ≠ []) :
    decimal? (digits.take k ++ ['.'] ++ digits.drop k)
      = some (decimalValue digits, -((digits.length - k : ℕ) : ℤ)) := by
  have hlead : digits.take k ≠ [] := by simp [hne, hk.ne']
  rw [List.append_assoc, List.singleton_append, decimal?_positional hlead
    (fun c hc => hdigits c (List.mem_of_mem_take hc))
    (fun c hc => hdigits c (List.mem_of_mem_drop hc)), List.take_append_drop, List.length_drop]

/-- **A layout can be read.**  Reading the text of a decimal gives its digits and exponent, or the
same value with more zeros among the digits. -/
theorem decimal?_text (layout : Layout) {d : Decimal} (hd : d.digits ≠ 0) :
    ∃ m : Decimal, decimal? (layout.text d) = some (m.digits, m.exponent) ∧ m.Pads d := by
  rw [Layout.text, if_neg hd]
  extract_lets digits count point exponent lead rest
  have hdigit : ∀ c ∈ digits, isDigit c = true := fun c => isDigit_of_mem_decimalDigits
  have hne : digits ≠ [] := decimalDigits_ne_nil d.digits
  have hvalue : decimalValue digits = d.digits := decimalValue_decimalDigits d.digits
  have hpoint : point = d.exponent + digits.length := rfl
  have hcount : 0 < digits.length := List.length_pos_iff.mpr hne
  clear_value digits
  -- only a whole number has zeros among its digits that were in the exponent
  by_cases hpositional : (layout.least ≤ point && point ≤ layout.most) = true
  · rw [if_pos hpositional]
    split_ifs with hwhole hinside
    · refine ⟨⟨d.digits * 10 ^ (d.exponent.toNat + 1), -1⟩, ?_, d.exponent.toNat + 1, rfl, ?_⟩
      · rw [decimal?_zeros_behind hne hdigit, hvalue]
      · push_cast
        omega
    · refine ⟨d, ?_, Decimal.Pads.refl d⟩
      rw [decimal?_point_inside hdigit (by omega) hne, hvalue]
      congr 2
      omega
    · refine ⟨d, ?_, Decimal.Pads.refl d⟩
      rw [decimal?_zeros_before hdigit, hvalue]
      congr 2
      omega
  · rw [if_neg hpositional]
    refine ⟨d, ?_, Decimal.Pads.refl d⟩
    rw [decimal?_scientific hne hdigit exponent, hvalue, List.length_drop]
    congr 2
    omega

/-! ## The characters of a number

A text that comes behind a number must not go on with these. -/

/-- The marks that only numbers with a fraction or an exponent have. -/
def isFloatMark (c : Char) : Bool := c == '.' || c == 'e' || c == 'E'

/-- The characters of numbers. -/
def isNumberChar (c : Char) : Bool := isDigit c || isFloatMark c || c == '-' || c == '+'

lemma isNumberChar_of_isDigit {c : Char} (h : isDigit c = true) : isNumberChar c = true := by
  simp [isNumberChar, h]

lemma decimalDigits_all_isNumberChar (n : ℕ) : (decimalDigits n).all isNumberChar = true :=
  List.all_eq_true.mpr fun _ hc => isNumberChar_of_isDigit (isDigit_of_mem_decimalDigits hc)

lemma zeros_all_isNumberChar (k : ℕ) : (List.replicate k '0').all isNumberChar = true :=
  List.all_eq_true.mpr fun _ hc => isNumberChar_of_isDigit (isDigit_of_mem_zeros hc)

lemma layout_text_all_isNumberChar (layout : Layout) (d : Decimal) :
    (layout.text d).all isNumberChar = true := by
  have hdigits := decimalDigits_all_isNumberChar d.digits
  have hzero : isNumberChar '0' = true := by decide
  have hpoint : isNumberChar '.' = true := by decide
  have hsign : (['e', '-'] : List Char).all isNumberChar = true
      ∧ (['e', '+'] : List Char).all isNumberChar = true := by decide
  rw [Layout.text]
  extract_lets digits count point exponent lead rest
  have htake : ∀ k, (digits.take k).all isNumberChar = true := fun k =>
    List.all_eq_true.mpr fun c hc => List.all_eq_true.mp hdigits c (List.mem_of_mem_take hc)
  have hdrop : ∀ k, (digits.drop k).all isNumberChar = true := fun k =>
    List.all_eq_true.mpr fun c hc => List.all_eq_true.mp hdigits c (List.mem_of_mem_drop hc)
  have hlead : lead.all isNumberChar = true := htake 1
  have hrest : rest.all isNumberChar = true := hdrop 1
  split_ifs
  all_goals
    simp only [List.all_append, List.all_cons, List.all_nil, Bool.and_true, hzero, hpoint, hsign,
      hlead, hrest, htake, hdrop, hdigits, decimalDigits_all_isNumberChar, zeros_all_isNumberChar,
      digits]

lemma exists_isFloatMark_layout_text (layout : Layout) (d : Decimal) :
    ∃ c ∈ layout.text d, isFloatMark c = true := by
  have hpoint : isFloatMark '.' = true := by decide
  have hexponent : isFloatMark 'e' = true := by decide
  rw [Layout.text]
  extract_lets digits count point exponent lead rest
  split_ifs
  case pos | pos | pos | neg => exact ⟨'.', by simp, hpoint⟩
  all_goals exact ⟨'e', by simp, hexponent⟩

/-! ## Numbers

The three stages one after another, and the sign, which is written and read apart. -/

namespace Binary64

/-- The number that a text with an optional sign stands for. -/
def read? : List Char → Option Binary64
  | '-' :: s => (decimal? s).bind fun (digits, exponent) => ofDecimal? true digits exponent
  | s => (decimal? s).bind fun (digits, exponent) => ofDecimal? false digits exponent

lemma decimalPattern_normalize (x : Binary64) (fuel : ℕ) :
    decimalPattern ((Decimal.shortest x.pattern).normalize fuel).digits
      ((Decimal.shortest x.pattern).normalize fuel).exponent = x.pattern := by
  have hshortest := Decimal.decimalPattern_shortest x.pattern
  obtain ⟨k, hdigits, hexponent⟩ := Decimal.pads_normalize fuel (Decimal.shortest x.pattern)
  rw [hdigits] at hshortest
  have hfinite : decimalPattern
      (((Decimal.shortest x.pattern).normalize fuel).digits * 10 ^ k)
      (Decimal.shortest x.pattern).exponent < infinitePattern := by
    rw [hshortest]
    exact x.finite
  rw [hexponent, ← decimalPattern_pad (.inl hfinite), hshortest]

/-- What is read from the text of a magnitude is rounded to the magnitude. -/
lemma decimal?_magnitude (layout : Layout) (x : Binary64) :
    ∃ m : Decimal, decimal? (layout.text ((Decimal.shortest x.pattern).normalize 400))
        = some (m.digits, m.exponent) ∧ decimalPattern m.digits m.exponent = x.pattern := by
  have hpattern := decimalPattern_normalize x 400
  generalize (Decimal.shortest x.pattern).normalize 400 = d at hpattern ⊢
  have hfinite : decimalPattern d.digits d.exponent < infinitePattern := hpattern ▸ x.finite
  rcases eq_or_ne d.digits 0 with hzero | hd
  · refine ⟨⟨0, -1⟩, by rw [Layout.text, if_pos hzero]; rfl, ?_⟩
    rw [← hpattern, hzero]
    simp [decimalPattern]
  · obtain ⟨m, hread, k, hdigits, hexponent⟩ := decimal?_text layout hd
    refine ⟨m, hread, ?_⟩
    have hlimit : d.exponent ≤ 400 := by
      by_contra hlarge
      rw [decimalPattern_of_large hd (not_le.mp hlarge)] at hfinite
      exact lt_irrefl _ hfinite
    rw [hdigits, decimalPattern_pad (.inr (hexponent ▸ hlimit)), ← hexponent, hpattern]

lemma ofDecimal?_of_pattern {x : Binary64} {digits : ℕ} {exponent : ℤ}
    (h : decimalPattern digits exponent = x.pattern) :
    ofDecimal? x.negative digits exponent = some x := by
  have hfinite : x.pattern < 2047 * Nat.pow 2 52 := x.finite
  simp only [ofDecimal?, ofPattern?, h, hfinite, dif_pos]

/-- The text of a decimal starts with a digit. -/
lemma exists_cons_text (layout : Layout) (d : Decimal) :
    ∃ c s, layout.text d = c :: s ∧ isDigit c = true := by
  obtain ⟨c, s, hdigits⟩ := List.exists_cons_of_ne_nil (decimalDigits_ne_nil d.digits)
  have hc : isDigit c = true := isDigit_of_mem_decimalDigits (hdigits ▸ List.mem_cons_self)
  have hzero : isDigit '0' = true := by decide
  rw [Layout.text]
  extract_lets digits count point exponent lead rest
  have hcons : digits = c :: s := hdigits
  clear_value digits
  subst hcons
  split_ifs with h0 hpositional hwhole hinside
  · exact ⟨'0', _, rfl, hzero⟩
  · exact ⟨c, _, rfl, hc⟩
  · obtain ⟨n, hn⟩ : ∃ n, point.toNat = n + 1 := ⟨point.toNat - 1, by omega⟩
    exact ⟨c, _, by rw [hn]; rfl, hc⟩
  · exact ⟨'0', _, rfl, hzero⟩
  all_goals exact ⟨c, _, rfl, hc⟩

/-- **Reading the text of a number gives the number**, whatever the layout. -/
theorem read?_text (layout : Layout) (x : Binary64) : read? (x.text layout) = some x := by
  obtain ⟨m, hread, hpattern⟩ := decimal?_magnitude layout x
  have hnumber := ofDecimal?_of_pattern hpattern
  obtain ⟨c, s, htext, hc⟩ :=
    exists_cons_text layout ((Decimal.shortest x.pattern).normalize 400)
  rw [text]
  cases hsign : x.negative with
  | true =>
      simp only [if_true, List.singleton_append, read?, hread, Option.bind_some]
      rw [← hsign, hnumber]
  | false =>
      rw [hsign] at hnumber
      rw [htext] at hread ⊢
      have hminus : c ≠ '-' := by rintro rfl; simp [isDigit] at hc
      simp only [Bool.false_eq_true, if_false, List.nil_append]
      rw [read?]
      · rw [hread, Option.bind_some]
        exact hnumber
      · simp [hminus]

lemma text_all_isNumberChar (layout : Layout) (x : Binary64) :
    (x.text layout).all isNumberChar = true := by
  rw [text, List.all_append, layout_text_all_isNumberChar, Bool.and_true]
  cases x.negative <;> decide

lemma exists_isFloatMark_text (layout : Layout) (x : Binary64) :
    ∃ c ∈ x.text layout, isFloatMark c = true := by
  obtain ⟨c, hc, hmark⟩ :=
    exists_isFloatMark_layout_text layout ((Decimal.shortest x.pattern).normalize 400)
  exact ⟨c, List.mem_append_right _ hc, hmark⟩

end Binary64

end WorkerGen
