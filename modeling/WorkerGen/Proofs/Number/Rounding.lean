import Mathlib
import WorkerGen.Number.Shortest

/-!
# Rounding depends on the value alone

A decimal is rounded to a pattern by `decimalPattern`, which is given digits and an exponent, and a
value has many such pairs: zeros can be moved from one to the other.  This file shows that it does
not matter which of them is taken (`decimalPattern_pad`), as long as the result is finite, and that
a pattern is what its own magnitude is rounded to (`nearestPattern_units`).

Rounding is done on a quotient of natural numbers.  Equal quotients are rounded alike
(`nearestPattern_congr`), since both are scaled to a common one; so moving a zero is multiplying
numerator and denominator by ten.  Exponents beyond a limit are not computed with, and there the
value is zero or not finite, which the leading bit of its whole part shows.
-/

namespace WorkerGen.Binary64

/-- The first pattern beyond the finite ones. -/
abbrev infinitePattern : ℕ := 2047 * 2 ^ 52

/-! ## The nearest pattern of a quotient

A quotient is brought to units with 53 significant bits, and what is left over decides between the
two patterns beside it. -/

lemma nearestPattern_scale {k : ℕ} (hk : 0 < k) (num den : ℕ) :
    nearestPattern (k * num) (k * den) = nearestPattern num den := by
  have hwhole : k * num / (k * den) = num / den := Nat.mul_div_mul_left num den hk
  simp only [nearestPattern, hwhole]
  generalize Nat.pow 2 (Nat.log2 (num / den) - 52) = unit
  generalize num / den / unit = significand
  have hrest : k * num - significand * unit * (k * den)
      = k * (num - significand * unit * den) := by
    rw [Nat.mul_sub, mul_left_comm]
  have hhalf : unit * (k * den) = k * (unit * den) := mul_left_comm _ _ _
  have hdouble : 2 * (k * (num - significand * unit * den))
      = k * (2 * (num - significand * unit * den)) := mul_left_comm _ _ _
  simp only [hrest, hhalf, hdouble, mul_lt_mul_iff_right₀ hk, Nat.mul_right_inj hk.ne',
    Bool.beq_eq_decide_eq]

/-- Equal quotients have the same nearest pattern. -/
lemma nearestPattern_congr {num den num' den' : ℕ} (hden : 0 < den) (hden' : 0 < den')
    (h : num * den' = num' * den) : nearestPattern num den = nearestPattern num' den' := by
  calc nearestPattern num den
      = nearestPattern (den' * num) (den' * den) := (nearestPattern_scale hden' num den).symm
    _ = nearestPattern (den * num') (den * den') := by
        rw [mul_comm den' num, h, mul_comm num' den, mul_comm den' den]
    _ = nearestPattern num' den' := nearestPattern_scale hden num' den'

/-- The leading bit of the whole part bounds the pattern from below. -/
lemma le_nearestPattern {num den s : ℕ} (h : 2 ^ (s + 52) ≤ num / den) :
    s * 2 ^ 52 ≤ nearestPattern num den := by
  have hwhole : num / den ≠ 0 := (lt_of_lt_of_le (by positivity) h).ne'
  have hlog : s + 52 ≤ Nat.log2 (num / den) := (Nat.le_log2 hwhole).mpr h
  have hlow : s * 2 ^ 52 ≤ (Nat.log2 (num / den) - 52) * 2 ^ 52 :=
    Nat.mul_le_mul_right _ (by omega)
  simp only [nearestPattern, Nat.pow_eq]
  split
  · exact le_trans hlow (by rw [add_assoc]; exact Nat.le_add_right _ _)
  · exact le_trans hlow (Nat.le_add_right _ _)

/-- The leading bit of the whole part bounds the pattern from above. -/
lemma nearestPattern_le {num den s : ℕ} (h : num / den < 2 ^ (s + 53)) :
    nearestPattern num den ≤ (s + 2) * 2 ^ 52 := by
  generalize hwhole : num / den = whole at h
  have hshift : Nat.log2 whole - 52 ≤ s := by
    rcases Nat.eq_zero_or_pos whole with rfl | hpos
    · simp
    · have := (Nat.log2_lt hpos.ne').mpr h
      omega
  have hsignificand : whole / 2 ^ (Nat.log2 whole - 52) < 2 ^ 53 := by
    rw [Nat.div_lt_iff_lt_mul (by positivity), ← pow_add]
    exact Nat.lt_log2_self.trans_le (Nat.pow_le_pow_right (by norm_num) (by omega))
  have hlow : (Nat.log2 whole - 52) * 2 ^ 52 ≤ s * 2 ^ 52 := Nat.mul_le_mul_right _ hshift
  have hhigh : (Nat.log2 whole - 52) * 2 ^ 52 + whole / 2 ^ (Nat.log2 whole - 52) + 1
      ≤ (s + 2) * 2 ^ 52 := by
    rw [add_mul, add_assoc]
    exact Nat.add_le_add hlow hsignificand
  simp only [nearestPattern, Nat.pow_eq, hwhole]
  split
  · exact hhigh
  · exact (Nat.le_succ _).trans hhigh

/-- A whole number of units with at most 53 significant bits is not rounded at all. -/
lemma nearestPattern_exact {whole shift significand : ℕ} (hlog : Nat.log2 whole - 52 = shift)
    (h : whole = significand * 2 ^ shift) :
    nearestPattern whole 1 = shift * 2 ^ 52 + significand := by
  have hpos : 0 < 2 ^ shift := by positivity
  have hdiv : whole / 2 ^ shift = significand := by rw [h]; exact Nat.mul_div_cancel _ hpos
  have hrest : whole - significand * 2 ^ shift = 0 := by omega
  simp only [nearestPattern, Nat.pow_eq, Nat.div_one, hlog, hdiv, hrest, mul_one, mul_zero,
    Nat.not_lt_zero, decide_false, beq_eq_false_iff_ne.mpr hpos.ne', Bool.false_and, Bool.or_self,
    Bool.false_eq_true, if_false]

/-- The magnitude of a pattern is rounded to that pattern. -/
lemma nearestPattern_units (p : ℕ) : nearestPattern (patternUnits p) 1 = p := by
  by_cases hp : p < 2 ^ 52
  · have hunits : patternUnits p = p * 2 ^ 0 := by
      simp only [patternUnits, patternSignificand, Nat.pow_eq, hp, if_true, Nat.div_eq_of_lt hp,
        Nat.zero_sub]
    have hlog : Nat.log2 (p * 2 ^ 0) - 52 = 0 := by
      rw [pow_zero, mul_one]
      rcases Nat.eq_zero_or_pos p with rfl | hpos
      · rfl
      · have := (Nat.log2_lt hpos.ne').mpr hp
        omega
    rw [hunits, nearestPattern_exact hlog rfl]
    simp
  · -- a pattern above the subnormal ones is its exponent and the 52 bits below the leading one
    obtain ⟨q, hq⟩ : ∃ q, p / 2 ^ 52 = q + 1 :=
      ⟨p / 2 ^ 52 - 1, by have := Nat.div_pos (not_lt.mp hp) (by positivity); omega⟩
    have hbits : p % 2 ^ 52 < 2 ^ 52 := Nat.mod_lt _ (by positivity)
    have hunits : patternUnits p = (2 ^ 52 + p % 2 ^ 52) * 2 ^ q := by
      simp only [patternUnits, patternSignificand, Nat.pow_eq, hp, if_false, hq,
        Nat.add_sub_cancel]
    have hlog : Nat.log2 ((2 ^ 52 + p % 2 ^ 52) * 2 ^ q) = q + 52 := by
      refine (Nat.log2_eq_iff (by positivity)).mpr ⟨?_, ?_⟩
      · rw [add_comm q, pow_add]
        exact Nat.mul_le_mul_right _ (by omega)
      · rw [show q + 52 + 1 = 53 + q by omega, pow_add]
        exact Nat.mul_lt_mul_of_pos_right (by omega) (by positivity)
    rw [hunits, nearestPattern_exact (by rw [hlog, Nat.add_sub_cancel]) rfl]
    have hsplit := Nat.div_add_mod p (2 ^ 52)
    rw [hq] at hsplit
    linarith

/-! ## Decimals

A decimal is a quotient with a power of ten above or below, as long as its exponent is within the
limits. -/

lemma decimalLength_pad {n : ℕ} (hn : n ≠ 0) (k : ℕ) :
    decimalLength (n * 10 ^ k) = decimalLength n + k := by
  induction k with
  | zero => simp
  | succ k ih =>
      have hbase : 10 ≤ n * 10 ^ (k + 1) := by
        rw [pow_succ, ← mul_assoc]
        exact Nat.le_mul_of_pos_left 10 (by positivity)
      have hdiv : n * 10 ^ (k + 1) / 10 = n * 10 ^ k := by
        rw [pow_succ, ← mul_assoc]
        exact Nat.mul_div_cancel _ (by norm_num)
      simp only [decimalLength] at ih ⊢
      rw [Nat.toDigits_of_base_le (by norm_num) hbase, hdiv, List.length_append, ih]
      rfl

/-- What a decimal within the limits on exponents is rounded to, whatever the sign of its
exponent. -/
lemma decimalPattern_eq {n : ℕ} {e : ℤ} (hn : n ≠ 0) (he : e ≤ 400)
    (hlow : -400 ≤ e + decimalLength n) :
    decimalPattern n e
      = nearestPattern (n * 10 ^ e.toNat * 2 ^ unitExponent) (10 ^ (-e).toNat) := by
  rw [decimalPattern, if_neg hn, if_neg (not_lt.mpr he), if_neg (not_lt.mpr hlow),
    Nat.pow_eq, Nat.pow_eq, Nat.pow_eq]
  split
  case isTrue h => rw [Int.toNat_eq_zero.mpr (by omega : -e ≤ 0), pow_zero]
  case isFalse h =>
    rw [Int.toNat_eq_zero.mpr (by omega : e ≤ 0), pow_zero, mul_one]

lemma decimalPattern_of_large {n : ℕ} {e : ℤ} (hn : n ≠ 0) (he : 400 < e) :
    decimalPattern n e = infinitePattern := by
  rw [decimalPattern, if_neg hn, if_pos he, Nat.pow_eq]

lemma decimalPattern_of_small {n : ℕ} {e : ℤ} (hlow : e + decimalLength n < -400) :
    decimalPattern n e = 0 := by
  rcases eq_or_ne n 0 with rfl | hn
  · rw [decimalPattern, if_pos rfl]
  · rw [decimalPattern, if_neg hn, if_neg (by omega : ¬ 400 < e), if_pos hlow]

/-- A value of `10 ^ 401` or more is not finite. -/
lemma infinitePattern_le_of_large {n j : ℕ} (hn : n ≠ 0) (hj : 401 ≤ j) :
    infinitePattern ≤ nearestPattern (n * 10 ^ j * 2 ^ unitExponent) 1 := by
  have hten : 2 ^ (3 * j) ≤ 10 ^ j := by
    rw [pow_mul]
    exact Nat.pow_le_pow_left (by norm_num) j
  obtain ⟨s, hs⟩ : ∃ s, s = 2047 := ⟨_, rfl⟩
  rw [infinitePattern, ← hs]
  refine le_nearestPattern ?_
  rw [Nat.div_one]
  calc 2 ^ (s + 52)
      ≤ 2 ^ (3 * j + unitExponent) :=
        Nat.pow_le_pow_right (by norm_num) (by rw [unitExponent]; omega)
    _ = 2 ^ (3 * j) * 2 ^ unitExponent := pow_add 2 _ _
    _ ≤ n * 10 ^ j * 2 ^ unitExponent := Nat.mul_le_mul_right _
        (le_trans hten (Nat.le_mul_of_pos_left _ (Nat.pos_of_ne_zero hn)))

/-- **Zeros can be moved between the digits and the exponent.**  The two ways to write a value are
rounded alike, unless one exponent is beyond the limit and the other is not; there neither result
is finite. -/
theorem decimalPattern_pad {n k : ℕ} {e : ℤ}
    (hfin : decimalPattern (n * 10 ^ k) e < infinitePattern ∨ e + k ≤ 400) :
    decimalPattern (n * 10 ^ k) e = decimalPattern n (e + k) := by
  rcases eq_or_ne n 0 with rfl | hn
  · simp [decimalPattern]
  have hpad : n * 10 ^ k ≠ 0 := by positivity
  have hlength : e + decimalLength (n * 10 ^ k) = e + k + decimalLength n := by
    rw [decimalLength_pad hn k]
    push_cast
    omega
  by_cases hlow : e + k + decimalLength n < -400
  · rw [decimalPattern_of_small hlow, decimalPattern_of_small (hlength ▸ hlow)]
  rw [not_lt] at hlow
  by_cases hbig : 400 < e
  · rw [decimalPattern_of_large hpad hbig, decimalPattern_of_large hn (by omega)]
  -- both are quotients now, and the quotients are equal
  have hleft := decimalPattern_eq hpad (not_lt.mp hbig) (hlength ▸ hlow)
  have hexp : k + e.toNat + (-(e + k)).toNat = (e + k).toNat + (-e).toNat := by omega
  have hratio : n * 10 ^ k * 10 ^ e.toNat * 2 ^ unitExponent * 10 ^ (-(e + k)).toNat
      = n * 10 ^ (e + k).toNat * 2 ^ unitExponent * 10 ^ (-e).toNat := by
    calc n * 10 ^ k * 10 ^ e.toNat * 2 ^ unitExponent * 10 ^ (-(e + k)).toNat
        = n * 2 ^ unitExponent * 10 ^ (k + e.toNat + (-(e + k)).toNat) := by
          rw [pow_add, pow_add]; ring
      _ = n * 10 ^ (e + k).toNat * 2 ^ unitExponent * 10 ^ (-e).toNat := by
          rw [hexp, pow_add]; ring
  have hsame := nearestPattern_congr (by positivity) (by positivity) hratio
  by_cases hlimit : e + k ≤ 400
  · rw [hleft, hsame, decimalPattern_eq hn hlimit hlow]
  · have hden : (-(e + k)).toNat = 0 := by omega
    rw [hden, pow_zero] at hsame
    have hinf := infinitePattern_le_of_large hn (by omega : 401 ≤ (e + k).toNat)
    rw [← hsame, ← hleft] at hinf
    exact absurd (hfin.resolve_right hlimit) (not_lt.mpr hinf)

end WorkerGen.Binary64
