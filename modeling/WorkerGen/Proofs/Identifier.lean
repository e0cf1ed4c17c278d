import Mathlib
import WorkerGen.Identifier
import WorkerGen.Proofs.Number.ReadBack

/-!
# Identifiers

Whatever text is made into an identifier, the result is one (`isIdentifier_identifier`).  A text
that is an identifier already stays as it is, and no other one does (`identifier_eq_self_iff`), and
the result is longer than the text only by the `_` that is put in front of some
(`length_identifier`).

`IsIdentifier` says what an identifier is with the classes of characters that the conversion uses.
`identifierPattern` says it without them, as a regular expression; the two agree
(`mem_matches_identifierPattern`).

The conversion goes through a text character by character, and every character comes to one, so all
of this is read off the list of characters.  A digit at the front stays and gets a `_` before it,
while every other character that may not be in an identifier is replaced by one.
-/

namespace WorkerGen

open Text

/-- A text that the generated program can use as a name: letters, digits, `_` and `$`, and no digit
in front. -/
def IsIdentifier (s : String) : Prop :=
  ∃ c rest, s.toList = c :: rest ∧ isDigit c = false ∧ ∀ d ∈ c :: rest, isIdentifierChar d = true

lemma isIdentifierChar_of_isDigit {c : Char} (h : isDigit c = true) :
    isIdentifierChar c = true := by
  simp [isIdentifierChar, isAlphanumeric, h]

/-- The characters of a text, with `_` for those that cannot be in an identifier. -/
def identifierBody (s : String) : List Char :=
  s.toList.map fun c => if isIdentifierChar c then c else '_'

lemma isIdentifierChar_of_mem_body {s : String} : ∀ c ∈ identifierBody s,
    isIdentifierChar c = true := by
  intro c hc
  obtain ⟨d, -, rfl⟩ := List.mem_map.mp hc
  split
  case isTrue h => exact h
  case isFalse => decide

lemma toList_identifier (s : String) : (identifier s).toList =
    if (identifierBody s).head?.all isDigit then '_' :: identifierBody s else identifierBody s :=
  String.toList_ofList

/-- **Every text is made into an identifier.** -/
theorem isIdentifier_identifier (s : String) : IsIdentifier (identifier s) := by
  have hbody := isIdentifierChar_of_mem_body (s := s)
  rw [IsIdentifier, toList_identifier]
  split_ifs with hdigit
  · refine ⟨'_', identifierBody s, rfl, by decide, ?_⟩
    rw [List.forall_mem_cons]
    exact ⟨by decide, hbody⟩
  · cases hs : identifierBody s with
    | nil => exact absurd hdigit (by simp [hs])
    | cons c rest =>
        rw [hs] at hdigit hbody
        exact ⟨c, rest, rfl, by simpa using hdigit, hbody⟩

example : identifier "2fa-\u00e9" = "_2fa__" := by decide +kernel

lemma isIdentifierChar_of_mem_identifier {s : String} {c : Char} (h : c ∈ (identifier s).toList) :
    isIdentifierChar c = true := by
  obtain ⟨d, rest, hs, -, hall⟩ := isIdentifier_identifier s
  exact hall c (hs ▸ h)

/-! ## Texts that stay as they are

A text of which every character may stand in an identifier is its own body. -/

lemma identifierBody_of_forall {s : String} (h : ∀ c ∈ s.toList, isIdentifierChar c = true) :
    identifierBody s = s.toList := by
  have hstays : ∀ c ∈ s.toList, (if isIdentifierChar c then c else '_') = c := fun c hc =>
    if_pos (h c hc)
  rw [identifierBody, List.map_congr_left hstays, List.map_id']

/-- **A text stays as it is exactly if it is an identifier.** -/
theorem identifier_eq_self_iff {s : String} : identifier s = s ↔ IsIdentifier s := by
  constructor
  · intro h
    exact h ▸ isIdentifier_identifier s
  · rintro ⟨c, rest, hs, hdigit, hall⟩
    have hbody : identifierBody s = c :: rest :=
      (identifierBody_of_forall (by rwa [hs])).trans hs
    have hfront : ¬(c :: rest).head?.all isDigit := by simp [hdigit]
    rw [← String.toList_inj, toList_identifier, hbody, if_neg hfront, hs]

/-- Making an identifier of an identifier changes nothing. -/
theorem identifier_identifier (s : String) : identifier (identifier s) = identifier s :=
  identifier_eq_self_iff.mpr (isIdentifier_identifier s)

/-! ## The length of identifiers -/

/-- Digits stay, and no other character becomes one. -/
lemma isDigit_identifierChar (c : Char) :
    isDigit (if isIdentifierChar c then c else '_') = isDigit c := by
  by_cases hc : isIdentifierChar c = true
  · rw [if_pos hc]
  · have hdigit : isDigit c = false := by
      by_contra h
      exact hc (isIdentifierChar_of_isDigit (by simpa using h))
    rw [if_neg hc, hdigit]
    decide

/-- A `_` is put in front exactly where the text is empty or starts with a digit. -/
lemma head?_identifierBody (s : String) :
    (identifierBody s).head?.all isDigit = true ↔ s = "" ∨ s.toList.head?.any isDigit = true := by
  rw [identifierBody, List.head?_map, ← String.toList_eq_nil_iff]
  cases s.toList with
  | nil => simp
  | cons c rest => simp [isDigit_identifierChar]

/-- **An identifier is as long as its text**, but for one character more where the text is empty or
starts with a digit. -/
theorem length_identifier (s : String) : (identifier s).length
    = s.length + if s = "" ∨ s.toList.head?.any isDigit = true then 1 else 0 := by
  have hbody : (identifierBody s).length = s.length := by
    rw [identifierBody, List.length_map, String.length_toList]
  rw [← String.length_toList, toList_identifier]
  simp only [head?_identifierBody]
  split_ifs
  · rw [List.length_cons, hbody]
  · rw [hbody, Nat.add_zero]

/-! ## The pattern of identifiers

The pattern is made of lists of characters, and that these are the classes of the conversion is
decided character by character. -/

/-- The pattern of a single character, one of the given. -/
def oneOf (chars : List Char) : RegularExpression Char := (chars.map .char).sum

/-- The characters that an identifier may start with, `[A-Za-z_$]`. -/
def identifierStarts : List Char := ('A' ...= 'Z').toList ++ ('a' ...= 'z').toList ++ ['_', '$']

/-- The characters of identifiers, `[A-Za-z0-9_$]`. -/
def identifierChars : List Char :=
  ('A' ...= 'Z').toList ++ ('a' ...= 'z').toList ++ ('0' ...= '9').toList ++ ['_', '$']

/-- The pattern of identifiers, `[A-Za-z_$][A-Za-z0-9_$]*`. -/
def identifierPattern : RegularExpression Char :=
  oneOf identifierStarts * (oneOf identifierChars).star

section

variable {chars s : List Char} {c first last : Char}

lemma mem_matches_oneOf : s ∈ (oneOf chars).matches' ↔ ∃ c ∈ chars, s = [c] := by
  induction chars with
  | nil => simp [oneOf, Language.notMem_zero]
  | cons d chars ih =>
      have hsum : oneOf (d :: chars) = .char d + oneOf chars := by simp [oneOf]
      rw [hsum, RegularExpression.matches'_add, Language.mem_add, ih, List.exists_mem_cons_iff]
      rfl

lemma mem_matches_star_oneOf : s ∈ (oneOf chars).star.matches' ↔ ∀ c ∈ s, c ∈ chars := by
  rw [RegularExpression.matches'_star, Language.mem_kstar]
  constructor
  · rintro ⟨parts, rfl, hparts⟩ c hc
    obtain ⟨part, hpart, hc⟩ := List.mem_flatten.mp hc
    obtain ⟨d, hd, rfl⟩ := mem_matches_oneOf.mp (hparts part hpart)
    rwa [List.mem_singleton.mp hc]
  · intro h
    refine ⟨s.map fun c => [c], (List.flatMap_singleton' s).symm, ?_⟩
    rw [List.forall_mem_map]
    exact fun c hc => mem_matches_oneOf.mpr ⟨c, h c hc, rfl⟩

lemma mem_toList_range : c ∈ (first ...= last).toList ↔ first ≤ c ∧ c ≤ last := by
  rw [Std.Rcc.mem_toList_iff_mem, Std.Rcc.mem_iff]

end

/-- Letters are no digits. -/
lemma isDigit_eq_false_of_isLetter {c : Char} (h : isLetter c = true) : isDigit c = false := by
  simp only [isLetter, Bool.or_eq_true, Bool.and_eq_true, decide_eq_true_eq] at h
  have habove : '9' < c := by
    rcases h with ⟨hfirst, -⟩ | ⟨hfirst, -⟩
    · exact lt_of_lt_of_le (by decide) hfirst
    · exact lt_of_lt_of_le (by decide) hfirst
  simp [isDigit, habove]

lemma mem_letters_iff {c : Char} :
    c ∈ ('A' ...= 'Z').toList ++ ('a' ...= 'z').toList ↔ isLetter c = true := by
  simp only [List.mem_append, mem_toList_range, isLetter, Bool.or_eq_true, Bool.and_eq_true,
    decide_eq_true_eq]
  exact or_comm

lemma mem_digits_iff {c : Char} : c ∈ ('0' ...= '9').toList ↔ isDigit c = true := by
  simp only [mem_toList_range, isDigit, Bool.and_eq_true, decide_eq_true_eq]

lemma mem_identifierChars_iff {c : Char} : c ∈ identifierChars ↔ isIdentifierChar c = true := by
  rw [identifierChars, List.mem_append, List.mem_append, mem_letters_iff, mem_digits_iff]
  simp [isIdentifierChar, isAlphanumeric, or_assoc]

/-- An identifier may start with what is in one, but not with a digit. -/
lemma mem_identifierStarts_iff {c : Char} :
    c ∈ identifierStarts ↔ isDigit c = false ∧ isIdentifierChar c = true := by
  rw [identifierStarts, List.mem_append, mem_letters_iff]
  constructor
  · rintro (hletter | hsign)
    · refine ⟨isDigit_eq_false_of_isLetter hletter, ?_⟩
      simp [isIdentifierChar, isAlphanumeric, hletter]
    · simp only [List.mem_cons, List.not_mem_nil, or_false] at hsign
      rcases hsign with rfl | rfl <;> decide
  · rintro ⟨hdigit, hc⟩
    simpa [isIdentifierChar, isAlphanumeric, hdigit, or_assoc] using hc

/-- **Identifiers are what the pattern of identifiers matches.** -/
theorem mem_matches_identifierPattern {s : String} :
    s.toList ∈ identifierPattern.matches' ↔ IsIdentifier s := by
  rw [identifierPattern, RegularExpression.matches'_mul, Language.mem_mul]
  simp only [mem_matches_oneOf, mem_matches_star_oneOf, mem_identifierStarts_iff,
    mem_identifierChars_iff]
  constructor
  · rintro ⟨_, ⟨c, ⟨hdigit, hc⟩, rfl⟩, rest, hrest, hs⟩
    exact ⟨c, rest, hs.symm, hdigit, List.forall_mem_cons.mpr ⟨hc, hrest⟩⟩
  · rintro ⟨c, rest, hs, hdigit, hall⟩
    obtain ⟨hc, hrest⟩ := List.forall_mem_cons.mp hall
    exact ⟨[c], ⟨c, ⟨hdigit, hc⟩, rfl⟩, rest, hrest, hs.symm⟩

end WorkerGen
