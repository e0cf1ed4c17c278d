import Mathlib
import WorkerGen.Proofs.Json.Literal
import WorkerGen.Proofs.Number.ReadBack

/-!
# JSON text read back

`read?` reads compact JSON text, and `read?_text` says that it finds every value in its text,
whatever follows, as long as a number is not followed by more of a number.  So the text of a value
stands for that value only, also in the middle of other text (`text_append_cancel`), and it is on
one line (`le_of_mem_text`).

The reader is for these theorems alone.  It reads what is written and no more, without white space
or other spellings, with fuel for which the length of a text is enough.  Values, items and members
are read by three functions which call each other, and the three theorems about them are shown
together by recursion on the value that was written.

Injectivity comes from it at once: two values with one text are what one reading gives.
-/

namespace WorkerGen

open Text

/-! ## Numbers

A whole number is written in decimal digits, and a number with a fraction or an exponent has a mark
that no whole number has.  The mark decides how the text is read. -/

/-- The whole number of decimal digits with an optional minus. -/
def readInt? : List Char → Option ℤ
  | '-' :: s => (digits? 10 s).map fun n => -(n : ℤ)
  | s => (digits? 10 s).map fun n => (n : ℤ)

/-- The number of a text: a binary64 number if it has a fraction or an exponent, else a whole
one. -/
def JsonNumber.read? (s : List Char) : Option JsonNumber :=
  if s.any isFloatMark then (Binary64.read? s).map .float else (readInt? s).map .int

lemma digitIn?_of_isDigit {c : Char} (h : isDigit c = true) :
    digitIn? 10 c = some (c.toNat - 48) := by
  have hlt : c.toNat - 48 < 10 := by
    simp only [isDigit, Bool.and_eq_true, decide_eq_true_eq, Char.le_def] at h
    have := UInt32.le_iff_toNat_le.mp h.2
    change c.toNat ≤ 57 at this
    omega
  simp [digitIn?, hexValue?, h, hlt]

lemma foldlM_digitIn? : ∀ {s : List Char} (_ : s.all isDigit = true) (a : ℕ),
    s.foldlM (fun n c => (digitIn? 10 c).map (10 * n + ·)) a
      = some (s.foldl (fun n c => 10 * n + (c.toNat - 48)) a)
  | [], _, a => rfl
  | c :: s, h, a => by
      rw [List.all_cons, Bool.and_eq_true] at h
      rw [List.foldlM_cons, digitIn?_of_isDigit h.1]
      exact foldlM_digitIn? h.2 _

lemma digits?_decimalDigits (n : ℕ) : digits? 10 (decimalDigits n) = some n := by
  have hne : (decimalDigits n).isEmpty = false := by simpa using decimalDigits_ne_nil n
  rw [digits?, hne, if_neg Bool.false_ne_true, foldlM_digitIn? (decimalDigits_all_isDigit n)]
  exact congrArg some (decimalValue_decimalDigits n)

lemma readInt?_intText : ∀ n : ℤ, readInt? (intText n) = some n
  | .ofNat n => by
      have hread := digits?_decimalDigits n
      obtain ⟨c, s, hs⟩ := List.exists_cons_of_ne_nil (decimalDigits_ne_nil n)
      have hc : isDigit c = true := isDigit_of_mem_decimalDigits (hs ▸ List.mem_cons_self)
      have hminus : c ≠ '-' := by rintro rfl; revert hc; decide
      rw [intText]
      rw [hs] at hread ⊢
      rw [readInt?, hread]
      · rfl
      · simp [hminus]
  | .negSucc n => by
      rw [intText, readInt?, digits?_decimalDigits]
      rfl

lemma isFloatMark_of_mem_intText {n : ℤ} {c : Char} (h : c ∈ intText n) :
    isFloatMark c = false := by
  have hdigit : ∀ {m : ℕ}, c ∈ decimalDigits m → isFloatMark c = false := by
    intro m hc
    have hc := isDigit_of_mem_decimalDigits hc
    simp only [isFloatMark, Bool.or_eq_false_iff, beq_eq_false_iff_ne]
    refine ⟨⟨?_, ?_⟩, ?_⟩ <;> rintro rfl <;> revert hc <;> decide
  cases n with
  | ofNat n => exact hdigit h
  | negSucc n =>
      rcases List.mem_cons.mp h with rfl | h
      · decide
      · exact hdigit h

namespace JsonNumber

lemma text_all_isNumberChar : ∀ n : JsonNumber, n.text.all isNumberChar = true
  | .int (.ofNat n) => decimalDigits_all_isNumberChar n
  | .int (.negSucc n) => by
      rw [text, intText, List.all_cons, decimalDigits_all_isNumberChar]
      decide
  | .float x => Binary64.text_all_isNumberChar .json x

lemma text_ne_nil : ∀ n : JsonNumber, n.text ≠ []
  | .int (.ofNat n) => decimalDigits_ne_nil n
  | .int (.negSucc _) => List.cons_ne_nil _ _
  | .float x => by
      obtain ⟨c, hc, -⟩ := Binary64.exists_isFloatMark_text .json x
      exact List.ne_nil_of_mem hc

/-- **The text of a number is read back.** -/
theorem read?_text : ∀ n : JsonNumber, read? n.text = some n
  | .int n => by
      have hmarks : (intText n).any isFloatMark = false :=
        List.any_eq_false.mpr fun c hc => by simp [isFloatMark_of_mem_intText hc]
      rw [read?, text, hmarks, if_neg Bool.false_ne_true, readInt?_intText]
      rfl
  | .float x => by
      have hmarks : (x.text .json).any isFloatMark = true :=
        List.any_eq_true.mpr (Binary64.exists_isFloatMark_text .json x)
      rw [read?, text, hmarks, if_pos rfl, Binary64.read?_text]
      rfl

end JsonNumber

/-! ## Values

Where a value ends is known from its first character for all but numbers.  A number ends at the
first character that is none of a number, so what follows it must not be one (`Delimited`). -/

namespace Json

mutual

/-- Reads a value at the start of a text: the value, and what follows it. -/
def readValue? : (fuel : ℕ) → List Char → Option (Json × List Char)
  | 0, _ => none
  | fuel + 1, s =>
    match s with
    | 'n' :: 'u' :: 'l' :: 'l' :: rest => some (.null, rest)
    | 't' :: 'r' :: 'u' :: 'e' :: rest => some (.bool true, rest)
    | 'f' :: 'a' :: 'l' :: 's' :: 'e' :: rest => some (.bool false, rest)
    | '"' :: rest => (readChars? rest).map fun (t, rest) => (.string (String.ofList t), rest)
    | '[' :: ']' :: rest => some (.array [], rest)
    | '[' :: rest => (readItems? fuel rest).map fun (items, rest) => (.array items, rest)
    | '{' :: '}' :: rest => some (.object [], rest)
    | '{' :: rest => (readMembers? fuel rest).map fun (members, rest) => (.object members, rest)
    | s => (JsonNumber.read? (s.takeWhile isNumberChar)).map fun n =>
        (.number n, s.dropWhile isNumberChar)

/-- Reads the items of an array up to its closing bracket; there has to be one. -/
def readItems? : (fuel : ℕ) → List Char → Option (List Json × List Char)
  | 0, _ => none
  | fuel + 1, s =>
    match readValue? fuel s with
    | some (v, ',' :: rest) => (readItems? fuel rest).map fun (items, rest) => (v :: items, rest)
    | some (v, ']' :: rest) => some ([v], rest)
    | _ => none

/-- Reads the members of an object up to its closing brace; there has to be one. -/
def readMembers? : (fuel : ℕ) → List Char → Option (List (String × Json) × List Char)
  | 0, _ => none
  | fuel + 1, s =>
    match readLiteral? s with
    | some (k, ':' :: rest) =>
      match readValue? fuel rest with
      | some (v, ',' :: rest) =>
        (readMembers? fuel rest).map fun (members, rest) => ((k, v) :: members, rest)
      | some (v, '}' :: rest) => some ([(k, v)], rest)
      | _ => none
    | _ => none

end

/-- The value of a text. -/
def read? (s : List Char) : Option Json :=
  match readValue? (s.length + 1) s with
  | some (v, []) => some v
  | _ => none

/-! ### Values and what follows them

The texts of values, items and members are put in front of any text, and are read up to there. -/

/-- A text behind a value that does not go on with a number. -/
abbrev Delimited (r : List Char) : Prop := Ends isNumberChar r

/-- No value starts like the end of an array. -/
lemma exists_cons_text : ∀ v : Json, ∃ c s, v.text = c :: s ∧ c ≠ ']'
  | .null => ⟨_, _, rfl, by decide⟩
  | .bool true => ⟨_, _, rfl, by decide⟩
  | .bool false => ⟨_, _, rfl, by decide⟩
  | .number n => by
      obtain ⟨c, s, hs⟩ := List.exists_cons_of_ne_nil n.text_ne_nil
      have hc := List.all_eq_true.mp n.text_all_isNumberChar c (hs ▸ List.mem_cons_self)
      exact ⟨c, s, hs, by rintro rfl; revert hc; decide⟩
  | .string _ => ⟨_, _, rfl, by decide⟩
  | .array _ => ⟨_, _, rfl, by decide⟩
  | .object _ => ⟨_, _, rfl, by decide⟩

lemma exists_cons_itemsText (v : Json) : ∀ vs : List Json,
    ∃ c s, itemsText (v :: vs) = c :: s ∧ c ≠ ']'
  | [] => by
      rw [itemsText]
      exact exists_cons_text v
  | w :: vs => by
      obtain ⟨c, s, hs, hc⟩ := exists_cons_text v
      rw [itemsText, hs]
      exact ⟨c, _, rfl, hc⟩

lemma exists_cons_membersText (m : String × Json) : ∀ ms : List (String × Json),
    ∃ s, membersText (m :: ms) = '"' :: s
  | [] => ⟨_, rfl⟩
  | _ :: _ => ⟨_, rfl⟩

lemma readValue?_number {n : JsonNumber} {r : List Char} (hr : Delimited r) (fuel : ℕ) :
    readValue? (fuel + 1) (n.text ++ r) = some (.number n, r) := by
  have hall := List.all_eq_true.mp n.text_all_isNumberChar
  have hread := n.read?_text
  have htake := takeWhile_append_of_ends hall hr
  have hdrop := dropWhile_append_of_ends hall hr
  obtain ⟨c, s, hs⟩ := List.exists_cons_of_ne_nil n.text_ne_nil
  have hc := hall c (hs ▸ List.mem_cons_self)
  rw [readValue?]
  · rw [htake, hdrop, hread]
    rfl
  all_goals
    rw [hs]
    intros
    rename_i h
    have := (List.cons.inj h).1
    subst this
    revert hc
    decide

mutual

/-- The text of a value is read, and the reading ends behind it. -/
theorem readValue?_text : ∀ (v : Json) {fuel : ℕ} {r : List Char}, Delimited r →
    v.text.length < fuel → readValue? fuel (v.text ++ r) = some (v, r)
  | v, 0, r, _, h => absurd h (Nat.not_lt_zero _)
  | .null, fuel + 1, r, _, _ => rfl
  | .bool true, fuel + 1, r, _, _ => rfl
  | .bool false, fuel + 1, r, _, _ => rfl
  | .number n, fuel + 1, r, hr, _ => readValue?_number hr fuel
  | .string s, fuel + 1, r, _, _ => by
      have htext : (Json.string s).text ++ r = '"' :: (escape s.toList ++ '"' :: r) := by
        simp [text, literal]
      rw [htext, readValue?, readChars?_escape]
      simp
  | .array [], fuel + 1, r, _, _ => rfl
  | .array (v :: vs), fuel + 1, r, _, h => by
      have htext : (Json.array (v :: vs)).text ++ r = '[' :: (itemsText (v :: vs) ++ ']' :: r) := by
        simp [text]
      have hlength : (Json.array (v :: vs)).text.length = (itemsText (v :: vs)).length + 2 := by
        simp [text]
      have hitems : readItems? fuel (itemsText (v :: vs) ++ ']' :: r) = some (v :: vs, r) :=
        readItems?_itemsText v vs (by omega)
      obtain ⟨c, s, hcons, hc⟩ := exists_cons_itemsText v vs
      rw [htext, readValue?, hitems]
      · rfl
      · rintro rest hrest
        rw [hcons] at hrest
        exact hc (List.cons.inj hrest).1
  | .object [], fuel + 1, r, _, _ => rfl
  | .object (m :: ms), fuel + 1, r, _, h => by
      have htext : (Json.object (m :: ms)).text ++ r
          = '\x7b' :: (membersText (m :: ms) ++ '\x7d' :: r) := by
        simp [text]
      have hlength : (Json.object (m :: ms)).text.length = (membersText (m :: ms)).length + 2 := by
        simp [text]
      have hmembers : readMembers? fuel (membersText (m :: ms) ++ '\x7d' :: r)
          = some (m :: ms, r) := readMembers?_membersText m ms (by omega)
      obtain ⟨s, hcons⟩ := exists_cons_membersText m ms
      rw [htext, readValue?, hmembers]
      · rfl
      · rintro rest hrest
        rw [hcons] at hrest
        exact absurd (List.cons.inj hrest).1 (by decide)

/-- The texts of items are read, and the reading ends behind the bracket. -/
theorem readItems?_itemsText : ∀ (v : Json) (vs : List Json) {fuel : ℕ} {r : List Char},
    (itemsText (v :: vs)).length + 1 < fuel →
      readItems? fuel (itemsText (v :: vs) ++ ']' :: r) = some (v :: vs, r)
  | _, _, 0, _, h => absurd h (Nat.not_lt_zero _)
  | v, [], fuel + 1, r, h => by
      have hv : readValue? fuel (v.text ++ ']' :: r) = some (v, ']' :: r) :=
        readValue?_text v (Ends.cons (by decide) r) (by simp only [itemsText] at h; omega)
      rw [itemsText, readItems?, hv]
      rfl
  | v, w :: vs, fuel + 1, r, h => by
      have htext : itemsText (v :: w :: vs) ++ ']' :: r
          = v.text ++ ',' :: (itemsText (w :: vs) ++ ']' :: r) := by
        simp [itemsText]
      have hlength : (itemsText (v :: w :: vs)).length
          = v.text.length + (itemsText (w :: vs)).length + 1 := by
        simp [itemsText]
        omega
      have hv : readValue? fuel (v.text ++ ',' :: (itemsText (w :: vs) ++ ']' :: r))
          = some (v, ',' :: (itemsText (w :: vs) ++ ']' :: r)) :=
        readValue?_text v (Ends.cons (by decide) _) (by omega)
      have hvs : readItems? fuel (itemsText (w :: vs) ++ ']' :: r) = some (w :: vs, r) :=
        readItems?_itemsText w vs (by omega)
      rw [htext, readItems?, hv]
      simp only [hvs, Option.map_some]

/-- The texts of members are read, and the reading ends behind the brace. -/
theorem readMembers?_membersText : ∀ (m : String × Json) (ms : List (String × Json)) {fuel : ℕ}
    {r : List Char}, (membersText (m :: ms)).length + 1 < fuel →
      readMembers? fuel (membersText (m :: ms) ++ '\x7d' :: r) = some (m :: ms, r)
  | _, _, 0, _, h => absurd h (Nat.not_lt_zero _)
  | (k, v), [], fuel + 1, r, h => by
      have htext : membersText [(k, v)] ++ '\x7d' :: r
          = literal k ++ ':' :: (v.text ++ '\x7d' :: r) := by
        simp [membersText]
      have hlength : (membersText [(k, v)]).length = (literal k).length + v.text.length + 1 := by
        simp [membersText]
        omega
      have hv : readValue? fuel (v.text ++ '\x7d' :: r) = some (v, '\x7d' :: r) :=
        readValue?_text v (Ends.cons (by decide) r) (by omega)
      rw [htext, readMembers?, readLiteral?_literal]
      simp only [hv]
  | (k, v), m :: ms, fuel + 1, r, h => by
      have htext : membersText ((k, v) :: m :: ms) ++ '\x7d' :: r
          = literal k ++ ':' :: (v.text ++ ',' :: (membersText (m :: ms) ++ '\x7d' :: r)) := by
        simp [membersText]
      have hlength : (membersText ((k, v) :: m :: ms)).length
          = (literal k).length + v.text.length + (membersText (m :: ms)).length + 2 := by
        simp [membersText]
        omega
      have hv : readValue? fuel (v.text ++ ',' :: (membersText (m :: ms) ++ '\x7d' :: r))
          = some (v, ',' :: (membersText (m :: ms) ++ '\x7d' :: r)) :=
        readValue?_text v (Ends.cons (by decide) _) (by omega)
      have hms : readMembers? fuel (membersText (m :: ms) ++ '\x7d' :: r) = some (m :: ms, r) :=
        readMembers?_membersText m ms (by omega)
      rw [htext, readMembers?, readLiteral?_literal]
      simp only [hv, hms, Option.map_some]

end

/-- **The text of a value is read back.** -/
theorem read?_text (v : Json) : read? v.text = some v := by
  have hread : readValue? (v.text.length + 1) (v.text ++ []) = some (v, []) :=
    readValue?_text v (Ends.nil isNumberChar) (Nat.lt_succ_self _)
  rw [List.append_nil] at hread
  rw [read?, hread]

theorem encode_injective : Function.Injective encode := by
  intro v w h
  have hread := congrArg (fun s : String => read? s.toList) h
  simpa [encode, read?_text] using hread

/-- **A text that starts with a value starts with only one**, if no number is cut off. -/
theorem text_append_cancel {v w : Json} {r₁ r₂ : List Char} (h₁ : Delimited r₁)
    (h₂ : Delimited r₂) (h : v.text ++ r₁ = w.text ++ r₂) : v = w ∧ r₁ = r₂ := by
  have hv : readValue? (v.text.length + w.text.length + 1) (v.text ++ r₁) = some (v, r₁) :=
    readValue?_text v h₁ (by omega)
  have hw : readValue? (v.text.length + w.text.length + 1) (w.text ++ r₂) = some (w, r₂) :=
    readValue?_text w h₂ (by omega)
  rw [h, hw] at hv
  simpa [eq_comm] using hv

/-! ## Characters that a text never holds

A value that is put on a line stays on it.  This is shown of the writer alone, by recursion on the
value. -/

lemma le_of_isNumberChar {c : Char} (h : isNumberChar c = true) : 0x20 ≤ c.toNat := by
  by_contra hlt
  have hall : ∀ n < 0x20, isNumberChar (Char.ofNat n) = false := by decide
  have hc := hall c.toNat (not_le.mp hlt)
  rw [Char.ofNat_toNat, h] at hc
  exact absurd hc (by decide)

mutual

/-- The text of a value holds no line feed and no other control character below the space. -/
theorem le_of_mem_text : ∀ v : Json, ∀ c ∈ v.text, 0x20 ≤ c.toNat
  | .null => by simp [text]
  | .bool true => by simp [text]
  | .bool false => by simp [text]
  | .number n => fun c hc => le_of_isNumberChar (List.all_eq_true.mp n.text_all_isNumberChar c hc)
  | .string s => fun _ => le_of_mem_literal
  | .array items => by
      have hitems := le_of_mem_itemsText items
      rw [text, List.forall_mem_append, List.forall_mem_append]
      exact ⟨⟨by simp, hitems⟩, by simp⟩
  | .object members => by
      have hmembers := le_of_mem_membersText members
      rw [text, List.forall_mem_append, List.forall_mem_append]
      exact ⟨⟨by simp, hmembers⟩, by simp⟩

lemma le_of_mem_itemsText : ∀ vs : List Json, ∀ c ∈ itemsText vs, 0x20 ≤ c.toNat
  | [] => by simp [itemsText]
  | [v] => le_of_mem_text v
  | v :: w :: vs => by
      have hv := le_of_mem_text v
      have hvs := le_of_mem_itemsText (w :: vs)
      rw [itemsText, List.forall_mem_append, List.forall_mem_append]
      exact ⟨⟨hv, by simp⟩, hvs⟩

lemma le_of_mem_membersText : ∀ ms : List (String × Json),
    ∀ c ∈ membersText ms, 0x20 ≤ c.toNat
  | [] => by simp [membersText]
  | [(k, v)] => by
      have hv := le_of_mem_text v
      rw [membersText, List.forall_mem_append, List.forall_mem_append]
      exact ⟨⟨fun _ => le_of_mem_literal, by simp⟩, hv⟩
  | (k, v) :: m :: ms => by
      have hv := le_of_mem_text v
      have hms := le_of_mem_membersText (m :: ms)
      simp only [membersText, List.forall_mem_append]
      exact ⟨⟨⟨⟨fun _ => le_of_mem_literal, by simp⟩, hv⟩, by simp⟩, hms⟩

end

end Json

end WorkerGen
