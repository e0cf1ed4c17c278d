import Mathlib
import WorkerGen.Proofs.Json.ReadBack
import WorkerGen.Yaml.Plain

/-!
# Scalars of digits and dots

A version such as `3.0` is made of digits and dots.  Written without quotes it may mean a whole
number, a number with a fraction, or itself, and it says which (`means_ofPlain`).  Where a text is
wanted the number is written back, which gives the scalar again exactly if it `IsKept`
(`readsAs_self_iff`).

The resolution of plain scalars tries one meaning after another: null, the words for truth, whole
numbers in several bases, numbers with a fraction.  For digits and dots most of these are ruled out
by a character that each of them would have (`beq_eq_false_of_isDotted`), and what is left is a case
split on whether all characters are digits, whether there is a leading zero, and whether the number
is within range.

`IsKept` is an explicit condition on the text.  It is no number at all, as `1.2.3` is none, or it is
just what its number is written as: digits without a leading zero, or the shortest decimal.
-/

namespace WorkerGen

open Text

/-! ## Digits without a leading zero

Such digits are exactly what a natural number is written as, so that reading them and writing the
number gives the digits again. -/

/-- Whether a text is digits that begin with a zero before others. -/
def HasLeadingZero (s : List Char) : Prop :=
  ∃ rest, rest ≠ [] ∧ (∀ c ∈ rest, isDigit c = true) ∧ s = '0' :: rest

lemma digitChar_of_isDigit {c : Char} (h : isDigit c = true) :
    c.toNat - 48 < 10 ∧ Nat.digitChar (c.toNat - 48) = c := by
  have hbounds : 48 ≤ c.toNat ∧ c.toNat ≤ 57 := by
    simpa [isDigit, Char.le_def, UInt32.le_iff_toNat_le] using h
  have hc : c = Char.ofNat c.toNat := (Char.ofNat_toNat c).symm
  obtain ⟨hlow, hhigh⟩ := hbounds
  generalize c.toNat = n at *
  subst hc
  interval_cases n <;> decide

lemma decimalValue_append_singleton (s : List Char) (c : Char) :
    decimalValue (s ++ [c]) = 10 * decimalValue s + (c.toNat - 48) := by
  simp [decimalValue]

/-- Digits without a leading zero are those of their value. -/
lemma decimalDigits_decimalValue {s : List Char} (hne : s ≠ [])
    (hdigits : ∀ c ∈ s, isDigit c = true) (hlead : ¬HasLeadingZero s) :
    decimalDigits (decimalValue s) = s := by
  induction s using List.reverseRecOn with
  | nil => exact absurd rfl hne
  | append_singleton s c ih =>
      obtain ⟨hsmall, hchar⟩ := digitChar_of_isDigit (hdigits c (by simp))
      have hlast : decimalDigits (c.toNat - 48) = [c] := by
        rw [decimalDigits, Nat.toDigits_of_lt_base hsmall, hchar]
      rw [decimalValue_append_singleton]
      rcases eq_or_ne s [] with rfl | hs
      · simpa [decimalValue] using hlast
      · have hinner : ∀ d ∈ s, isDigit d = true := fun d hd => hdigits d (by simp [hd])
        have hleads : ∀ rest, s ≠ '0' :: rest := by
          rintro rest rfl
          refine hlead ⟨rest ++ [c], by simp, fun d hd => hdigits d ?_, rfl⟩
          simp at hd ⊢
          tauto
        have hwhole : decimalDigits (decimalValue s) = s :=
          ih hs hinner fun ⟨rest, _, _, heq⟩ => hleads rest heq
        have hpos : 0 < decimalValue s := by
          rw [Nat.pos_iff_ne_zero]
          intro hzero
          rw [hzero] at hwhole
          exact hleads [] hwhole.symm
        rw [decimalDigits, ← Nat.toDigits_append_toDigits (by norm_num) hpos hsmall]
        exact congrArg₂ (· ++ ·) hwhole hlast

lemma decimalValue_lt {s : List Char} (hdigits : ∀ c ∈ s, isDigit c = true) :
    decimalValue s < 10 ^ s.length := by
  induction s using List.reverseRecOn with
  | nil => simp [decimalValue]
  | append_singleton s c ih =>
      have hlast := (digitChar_of_isDigit (hdigits c (by simp))).1
      have hbefore : decimalValue s < 10 ^ s.length := ih fun d hd => hdigits d (by simp [hd])
      rw [decimalValue_append_singleton, List.length_append, List.length_singleton, pow_succ]
      omega

lemma not_hasLeadingZero_decimalDigits (n : ℕ) : ¬HasLeadingZero (decimalDigits n) := by
  rintro ⟨rest, hne, hdigits, hwritten⟩
  have hvalue : decimalValue rest = n := by
    rw [← decimalValue_decimalDigits n, hwritten]
    rfl
  have hlength : (decimalDigits n).length ≤ rest.length :=
    (Nat.length_toDigits_le_iff (by norm_num) (List.length_pos_iff.mpr hne)).mpr
      (hvalue ▸ decimalValue_lt hdigits)
  rw [hwritten, List.length_cons] at hlength
  omega

/-! ## Digits and dots

Digits with a leading zero are no whole number here, and no number with a fraction either; they mean
themselves. -/

/-- Whether a character is a digit or a dot. -/
def isDottedChar (c : Char) : Bool := isDigit c || c == '.'

/-- Whether a text is made of digits and dots. -/
def IsDotted (s : List Char) : Prop := s ≠ [] ∧ ∀ c ∈ s, isDottedChar c = true

instance (s : List Char) : Decidable (IsDotted s) :=
  decidable_of_iff (s.isEmpty = false ∧ s.all isDottedChar = true) (by simp [IsDotted])

namespace Yaml

/-- What a plain scalar of digits and dots means. -/
inductive Means (s : List Char) : Meaning → Prop
  | natural {n : ℕ} (bound : n < 2 ^ 64) (written : s = decimalDigits n) : Means s (.natural n)
  | wide {n : ℕ} (above : 2 ^ 64 ≤ n) (bound : n < 2 ^ 128) (written : s = decimalDigits n) :
      Means s (.wideNatural n)
  | float {x : Binary64} (whole : ∀ n < 2 ^ 128, s ≠ decimalDigits n) (lead : ¬HasLeadingZero s)
      (value : Binary64.read? s = some x) : Means s (.float (.finite x))
  | text (none : HasLeadingZero s ∨ Binary64.read? s = none) :
      Means s (.text (String.ofList s))

namespace Meaning

variable {s : List Char}

/-- A word that has another character is not made of digits and dots. -/
lemma beq_eq_false_of_isDotted (hs : IsDotted s) {word : List Char} {c : Char} (hc : c ∈ word)
    (hother : isDottedChar c = false) : (s == word) = false := by
  rw [beq_eq_false_iff_ne]
  rintro rfl
  exact absurd (hs.2 c hc) (by simp [hother])

lemma ne_cons_of_isDotted (hs : IsDotted s) {c : Char} (hother : isDottedChar c = false)
    (rest : List Char) : s ≠ c :: rest := by
  rintro rfl
  exact absurd (hs.2 c (by simp)) (by simp [hother])

lemma isNullWord_of_isDotted (hs : IsDotted s) : isNullWord s = false := by
  have hword : ∀ {word c}, c ∈ word → isDottedChar c = false → (s == word) = false :=
    beq_eq_false_of_isDotted hs
  rw [isNullWord, hword (c := 'u') (by decide) (by decide),
    hword (c := 'N') (by decide) (by decide), hword (c := 'N') (by decide) (by decide),
    hword (c := '~') (by decide) (by decide)]
  rfl

lemma boolOf?_of_isDotted (hs : IsDotted s) : boolOf? s = none := by
  have hword : ∀ {word c}, c ∈ word → isDottedChar c = false → (s == word) = false :=
    beq_eq_false_of_isDotted hs
  rw [boolOf?, hword (c := 't') (by decide) (by decide), hword (c := 'T') (by decide) (by decide),
    hword (c := 'T') (by decide) (by decide), hword (c := 'f') (by decide) (by decide),
    hword (c := 'F') (by decide) (by decide), hword (c := 'F') (by decide) (by decide)]
  rfl

lemma based?_of_isDotted (hs : IsDotted s) : based? s = none := by
  have hbase : ∀ c, isDottedChar c = false → ∀ rest, s ≠ '0' :: c :: rest := by
    rintro c hother rest rfl
    exact absurd (hs.2 c (by simp)) (by simp [hother])
  rw [based?]
  · exact hbase 'x' (by decide)
  · exact hbase 'o' (by decide)
  · exact hbase 'b' (by decide)

lemma hasLeadingZero_iff (hs : IsDotted s) : hasLeadingZero s = true ↔ HasLeadingZero s := by
  by_cases hform : ∃ c rest, s = '0' :: c :: rest
  · obtain ⟨c, rest, rfl⟩ := hform
    have hall : hasLeadingZero ('0' :: c :: rest) = (c :: rest).all isDigit := rfl
    rw [hall, List.all_eq_true]
    constructor
    · exact fun h => ⟨c :: rest, by simp, h, rfl⟩
    · rintro ⟨_, _, hdigits, heq⟩
      exact (List.cons.inj heq).2 ▸ hdigits
  · have hnone : hasLeadingZero s = false := by
      rw [hasLeadingZero]
      · exact ne_cons_of_isDotted hs (by decide)
      · exact ne_cons_of_isDotted hs (by decide)
      · exact fun c rest heq => hform ⟨c, rest, heq⟩
    rw [hnone]
    refine iff_of_false (by simp) ?_
    rintro ⟨rest, hne, -, rfl⟩
    obtain ⟨c, rest, rfl⟩ := List.exists_cons_of_ne_nil hne
    exact hform ⟨c, rest, rfl⟩

lemma natural?_of_isDotted (hs : IsDotted s) :
    natural? s = if hasLeadingZero s then none else digits? 10 s := by
  rw [natural?, based?_of_isDotted hs]
  exact ne_cons_of_isDotted hs (by decide)

lemma minus?_of_isDotted (hs : IsDotted s) : minus? s = none := by
  rw [minus?]
  exact ne_cons_of_isDotted hs (by decide)

lemma float?_of_isDotted (hs : IsDotted s) :
    float? s = (Binary64.read? s).map .finite := by
  have hword : ∀ {word c}, c ∈ word → isDottedChar c = false → (s == word) = false :=
    beq_eq_false_of_isDotted hs
  have hread : Binary64.read? s = (decimal? s).bind fun d => Binary64.ofDecimal? false d.1 d.2 := by
    rw [Binary64.read?]
    exact ne_cons_of_isDotted hs (by decide)
  rw [float?]
  · dsimp only
    rw [hword (c := 'n') (by decide) (by decide), hword (c := 'N') (by decide) (by decide),
      hword (c := 'N') (by decide) (by decide), hword (c := 'i') (by decide) (by decide),
      hword (c := 'I') (by decide) (by decide), hword (c := 'I') (by decide) (by decide), hread]
    cases decimal? s <;> rfl
  · exact ne_cons_of_isDotted hs (by decide)
  · exact ne_cons_of_isDotted hs (by decide)

/-! ### What is left of the meanings

Once null, truth values, signs and other bases are ruled out, a scalar is a whole number, a number
with a fraction or a text, and which of these it is depends on its digits. -/

/-- The digits of a whole number are the only way to write it without a leading zero. -/
lemma digits?_eq_some_iff (hs : IsDotted s) (hlead : ¬HasLeadingZero s) {n : ℕ} :
    digits? 10 s = some n ↔ s = decimalDigits n := by
  constructor
  · intro h
    have hall : ∀ c ∈ s, isDigit c = true := by
      by_contra! hdot
      obtain ⟨c, hc, hother⟩ := hdot
      obtain rfl : c = '.' := by simpa [isDottedChar, hother] using hs.2 c hc
      obtain ⟨before, after, rfl⟩ := List.append_of_mem hc
      have hnone : digitIn? 10 '.' = none := by decide
      simp [digits?, List.foldlM_append, hnone] at h
    have hvalue : digits? 10 s = some (decimalValue s) := by
      rw [digits?, if_neg (by simpa using hs.1), foldlM_digitIn? (List.all_eq_true.mpr hall)]
      rfl
    rw [hvalue, Option.some.injEq] at h
    rw [← h, decimalDigits_decimalValue hs.1 hall hlead]
  · rintro rfl
    exact digits?_decimalDigits n

lemma integer?_of_isDotted (hs : IsDotted s) (hlead : ¬HasLeadingZero s) :
    integer? s = (digits? 10 s).bind fun n =>
      if n < 2 ^ 64 then some (.natural n)
      else if n < 2 ^ 128 then some (.wideNatural n) else none := by
  rw [integer?, natural?_of_isDotted hs, minus?_of_isDotted hs,
    if_neg (mt (hasLeadingZero_iff hs).mp hlead)]
  cases digits? 10 s <;> rfl

lemma ofPlain_of_isDotted {t : String} (ht : IsDotted t.toList) : ofPlain t =
    (integer? t.toList).getD
      (((if hasLeadingZero t.toList then none else float? t.toList).map .float).getD
        (.text t)) := by
  have hne : t.toList.isEmpty = false := by simpa using ht.1
  simp only [ofPlain, hne, isNullWord_of_isDotted ht, boolOf?_of_isDotted ht, Bool.or_self,
    Bool.false_eq_true, if_false]
  cases integer? t.toList with
  | some n => rfl
  | none => cases (if hasLeadingZero t.toList then none else float? t.toList) <;> rfl

end Meaning

lemma means_of_not_whole {t : String} (ht : IsDotted t.toList) (hlead : ¬HasLeadingZero t.toList)
    (hwhole : ∀ n < 2 ^ 128, t.toList ≠ decimalDigits n)
    (hinteger : Meaning.integer? t.toList = none) : Means t.toList (Meaning.ofPlain t) := by
  rw [Meaning.ofPlain_of_isDotted ht, hinteger,
    if_neg (mt (Meaning.hasLeadingZero_iff ht).mp hlead), Meaning.float?_of_isDotted ht]
  cases hread : Binary64.read? t.toList with
  | none => simpa using Means.text (.inr hread)
  | some x => exact .float hwhole hlead hread

/-- **What a plain scalar of digits and dots means.** -/
theorem means_ofPlain {t : String} (ht : IsDotted t.toList) :
    Means t.toList (Meaning.ofPlain t) := by
  by_cases hlead : HasLeadingZero t.toList
  · have hzero : Meaning.hasLeadingZero t.toList = true := (Meaning.hasLeadingZero_iff ht).mpr hlead
    have hinteger : Meaning.integer? t.toList = none := by
      rw [Meaning.integer?, Meaning.natural?_of_isDotted ht, Meaning.minus?_of_isDotted ht,
        if_pos hzero]
    rw [Meaning.ofPlain_of_isDotted ht, hinteger, if_pos hzero]
    simpa using Means.text (.inl hlead)
  have hinteger := Meaning.integer?_of_isDotted ht hlead
  cases hdigits : digits? 10 t.toList with
  | none =>
      refine means_of_not_whole ht hlead (fun n _ hwritten => ?_) (by rw [hinteger, hdigits]; rfl)
      rw [(Meaning.digits?_eq_some_iff ht hlead).mpr hwritten] at hdigits
      exact absurd hdigits (by simp)
  | some n =>
      have hwritten := (Meaning.digits?_eq_some_iff ht hlead).mp hdigits
      rw [hdigits, Option.bind_some] at hinteger
      split_ifs at hinteger with hnarrow hwide
      · rw [Meaning.ofPlain_of_isDotted ht, hinteger]
        exact .natural hnarrow hwritten
      · rw [Meaning.ofPlain_of_isDotted ht, hinteger]
        exact .wide (by omega) hwide hwritten
      · refine means_of_not_whole ht hlead (fun m hm hother => hwide ?_) hinteger
        have hsame : n = m := by
          rw [← decimalValue_decimalDigits n, ← hwritten, hother, decimalValue_decimalDigits]
        omega

end Yaml

/-! ## Numbers that are written back

A number with a fraction is never written as digits alone, and a whole number is never written with
a point, so which of the two was meant can be told from the text that comes back. -/

/-- The text that digits and dots without quotes are read as. -/
inductive ReadsAs (s : List Char) : List Char → Prop
  /-- A whole number of 64 bits, and what is no number. -/
  | same (h : (∃ n < 2 ^ 64, s = decimalDigits n) ∨ HasLeadingZero s ∨ Binary64.read? s = none) :
      ReadsAs s s
  /-- Every other number is rounded, and what is written back is the nearest binary64 number.  One
  of more than 64 and at most 128 bits is refused instead. -/
  | rounded {x : Binary64} (whole : ∀ n < 2 ^ 128, s ≠ decimalDigits n) (lead : ¬HasLeadingZero s)
      (value : Binary64.read? s = some x) : ReadsAs s (x.text .json)

/-- Whether digits and dots are read as they are written. -/
def IsKept (s : List Char) : Prop :=
  (∃ n < 2 ^ 64, s = decimalDigits n) ∨ (∃ x : Binary64, s = x.text .json) ∨
    HasLeadingZero s ∨ Binary64.read? s = none

/-- Whole numbers of 128 bits are within the range of binary64. -/
lemma read?_decimalDigits_isSome {n : ℕ} (h : n < 2 ^ 128) :
    (Binary64.read? (decimalDigits n)).isSome := by
  have hdecimal : decimal? (decimalDigits n) = some (n, 0) := by
    have hread := decimal?_of_whole (decimalDigits_ne_nil n)
      (fun c => isDigit_of_mem_decimalDigits) (Ends.nil isDigit) (by simp)
    rw [List.append_nil, decimalValue_decimalDigits] at hread
    rw [hread]
    rfl
  have hpattern : Binary64.decimalPattern n 0 < Binary64.infinitePattern := by
    rcases eq_or_ne n 0 with rfl | hn
    · simp [Binary64.decimalPattern]
    · rw [Binary64.decimalPattern_eq hn (by norm_num) (by omega)]
      have hwhole : n * 10 ^ (0 : ℤ).toNat * 2 ^ Binary64.unitExponent / 10 ^ (-0 : ℤ).toNat
          < 2 ^ (75 + Binary64.unitExponent + 53) := by
        rw [Int.toNat_zero, neg_zero, Int.toNat_zero, pow_zero, mul_one, Nat.div_one,
          show 75 + Binary64.unitExponent + 53 = 128 + Binary64.unitExponent by omega, pow_add]
        exact Nat.mul_lt_mul_of_pos_right h (by positivity)
      refine (Binary64.nearestPattern_le hwhole).trans_lt ?_
      norm_num [Binary64.unitExponent]
  rw [Binary64.read?, hdecimal]
  · simp only [Option.bind_some, Binary64.ofDecimal?, Binary64.ofPattern?, Nat.pow_eq, hpattern,
      dif_pos, Option.isSome_some]
  · intro s hs
    have hminus := isDigit_of_mem_decimalDigits (hs ▸ List.mem_cons_self)
    exact absurd hminus (by decide)

/-- A written binary64 number is not made of digits alone. -/
lemma exists_not_isDigit_text (x : Binary64) : ∃ c ∈ x.text .json, isDigit c = false := by
  obtain ⟨c, hc, hmark⟩ := Binary64.exists_isFloatMark_text .json x
  refine ⟨c, hc, ?_⟩
  simp only [isFloatMark, Bool.or_eq_true, beq_iff_eq] at hmark
  rcases hmark with (rfl | rfl) | rfl <;> decide

lemma text_ne_decimalDigits (x : Binary64) (n : ℕ) : x.text .json ≠ decimalDigits n := by
  intro h
  obtain ⟨c, hc, hother⟩ := exists_not_isDigit_text x
  rw [isDigit_of_mem_decimalDigits (h ▸ hc)] at hother
  exact absurd hother (by simp)

lemma not_hasLeadingZero_text (x : Binary64) : ¬HasLeadingZero (x.text .json) := by
  rintro ⟨rest, -, hdigits, hwritten⟩
  obtain ⟨c, hc, hother⟩ := exists_not_isDigit_text x
  rw [hwritten, List.mem_cons] at hc
  rcases hc with rfl | hc
  · exact absurd hother (by decide)
  · rw [hdigits c hc] at hother
    exact absurd hother (by simp)

/-- **Which scalars are kept**: those that are no number but their own text, and those that are just
what their number is written as. -/
theorem readsAs_self_iff {s : List Char} : ReadsAs s s ↔ IsKept s := by
  constructor
  · intro h
    generalize hr : s = r at h
    cases h with
    | same h =>
        rcases h with hwhole | hother
        · exact .inl hwhole
        · exact .inr (.inr hother)
    | @rounded x => exact .inr (.inl ⟨x, rfl⟩)
  · rintro (hwhole | ⟨x, rfl⟩ | hother)
    · exact .same (.inl hwhole)
    · exact .rounded (fun n _ => text_ne_decimalDigits x n) (not_hasLeadingZero_text x)
        (Binary64.read?_text .json x)
    · exact .same (.inr hother)

/-- The text of what digits and dots mean. -/
def Yaml.Meaning.written? : Meaning → Option (List Char)
  | .natural n => some (decimalDigits n)
  | .float (.finite x) => some (x.text .json)
  | .text t => some t.toList
  | _ => none

/-- **What digits and dots are read as is the text of what they mean.** -/
theorem readsAs_iff_of_means {s r : List Char} {meaning : Yaml.Meaning}
    (h : Yaml.Means s meaning) : ReadsAs s r ↔ meaning.written? = some r := by
  cases h with
  | @natural n bound written =>
      have hkept : ReadsAs s s := .same (.inl ⟨n, bound, written⟩)
      simp only [Yaml.Meaning.written?, ← written, Option.some.injEq]
      constructor
      · rintro (_ | ⟨whole, -, -⟩)
        · rfl
        · exact absurd written (whole n (by omega))
      · rintro rfl
        exact hkept
  | @wide n above bound written =>
      refine iff_of_false ?_ (by simp [Yaml.Meaning.written?])
      rintro (⟨⟨m, hm, hother⟩ | hlead | hnone⟩ | ⟨whole, -, -⟩)
      · obtain rfl := decimalDigits_injective (written.symm.trans hother)
        omega
      · exact not_hasLeadingZero_decimalDigits n (written ▸ hlead)
      · have hsome := read?_decimalDigits_isSome bound
        rw [← written, hnone] at hsome
        exact absurd hsome (by simp)
      · exact whole n bound written
  | @float x whole lead value =>
      simp only [Yaml.Meaning.written?, Option.some.injEq]
      constructor
      · rintro (⟨⟨m, hm, hother⟩ | hlead | hnone⟩ | ⟨-, -, hvalue⟩)
        · exact absurd hother (whole m (by omega))
        · exact absurd hlead lead
        · rw [hnone] at value
          exact absurd value (by simp)
        · rw [Option.some.inj (value.symm.trans hvalue)]
      · rintro rfl
        exact .rounded whole lead value
  | text none =>
      have hkept : ReadsAs s s := .same (.inr none)
      simp only [Yaml.Meaning.written?, String.toList_ofList, Option.some.injEq]
      constructor
      · rintro (_ | ⟨-, lead, value⟩)
        · rfl
        · rcases none with hlead | hnone
          · exact absurd hlead lead
          · rw [hnone] at value
            exact absurd value (by simp)
      · rintro rfl
        exact hkept

end WorkerGen
