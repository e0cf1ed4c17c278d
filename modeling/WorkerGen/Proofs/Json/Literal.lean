import Mathlib
import WorkerGen.Json.Text
import WorkerGen.Number.Digits

/-!
# String literals read back

`readLiteral?` decodes a string literal at the start of a text, as a JSON reader does, and answers
what follows it.  It finds every literal that is written (`readLiteral?_literal`), so that a text is
never cut short by what stands in it: neither a quote nor a backslash ends it, and no line feed or
other control character can be seen from outside (`le_of_mem_literal`).

The decoder also knows escapes that are never written.  What it is used for is to read files back,
and a file is read as anybody would read it.
-/

namespace WorkerGen

namespace Json

/-! ## Decoding

A character that may not stand in a literal by itself makes the reading fail, as does an escape that
stands for nothing. -/

/-- The character that a backslash and a letter or sign stand for. -/
def shortEscape? : Char → Option Char
  | '"' => some '"'
  | '\\' => some '\\'
  | '/' => some '/'
  | 'b' => some '\x08'
  | 'f' => some '\x0c'
  | 'n' => some '\n'
  | 'r' => some '\r'
  | 't' => some '\t'
  | _ => none

/-- The character of four hexadecimal digits.  Halves of a surrogate pair are none. -/
def codeEscape? (digits : List Char) : Option Char :=
  (digits? 16 digits).bind fun n => if n.isValidChar then some (Char.ofNat n) else none

/-- Reads the inside of a literal up to its closing quote: the text it stands for, and what
follows the quote. -/
def readChars? : List Char → Option (List Char × List Char)
  | [] => none
  | c :: rest =>
    if c = '"' then some ([], rest)
    else if c = '\\' then
      match rest with
      | [] => none
      | e :: rest =>
        if e = 'u' then
          match rest with
          | h₁ :: h₂ :: h₃ :: h₄ :: rest =>
            (codeEscape? [h₁, h₂, h₃, h₄]).bind fun d =>
              (readChars? rest).map fun (s, rest) => (d :: s, rest)
          | _ => none
        else
          (shortEscape? e).bind fun d => (readChars? rest).map fun (s, rest) => (d :: s, rest)
    else if c.toNat < 0x20 then none
    else (readChars? rest).map fun (s, rest) => (c :: s, rest)

/-- Reads a literal at the start of a text: what it stands for, and what follows it. -/
def readLiteral? : List Char → Option (String × List Char)
  | '"' :: rest => (readChars? rest).map fun (s, rest) => (String.ofList s, rest)
  | _ => none

/-! ## Escapes

A character is written as it is, as a backslash and a sign, or as four hexadecimal digits.  In each
case the decoder is back where it was, behind the character. -/

lemma digitIn?_hexDigit {n : ℕ} : digitIn? 16 (hexDigit n) = some (n % 16) := by
  have hall : ∀ d < 16, digitIn? 16 (Nat.digitChar d) = some d := by decide
  exact hall _ (Nat.mod_lt _ (by norm_num))

lemma codeEscape?_control {c : Char} (hc : c.toNat < 0x20) :
    codeEscape? ['0', '0', hexDigit (c.toNat / 16), hexDigit c.toNat] = some c := by
  have hzero : digitIn? 16 '0' = some 0 := by decide
  have hcode : 16 * (c.toNat / 16 % 16) + c.toNat % 16 = c.toNat := by omega
  have hvalid : c.toNat.isValidChar := c.valid
  simp [codeEscape?, digits?, hzero, digitIn?_hexDigit, hcode, hvalid]

lemma readChars?_quote (rest : List Char) : readChars? ('"' :: rest) = some ([], rest) := by
  rw [readChars?.eq_def]
  rfl

lemma readChars?_short {e d : Char} (hu : e ≠ 'u') (h : shortEscape? e = some d)
    (rest : List Char) : readChars? ('\\' :: e :: rest)
      = (readChars? rest).map fun (s, rest) => (d :: s, rest) := by
  rw [readChars?.eq_def]
  simp [hu, h]

lemma readChars?_code {h₁ h₂ h₃ h₄ d : Char} (h : codeEscape? [h₁, h₂, h₃, h₄] = some d)
    (rest : List Char) : readChars? ('\\' :: 'u' :: h₁ :: h₂ :: h₃ :: h₄ :: rest)
      = (readChars? rest).map fun (s, rest) => (d :: s, rest) := by
  rw [readChars?.eq_def]
  simp [h]

lemma readChars?_plain {c : Char} (hquote : c ≠ '"') (hbackslash : c ≠ '\\')
    (hcontrol : ¬c.toNat < 0x20) (rest : List Char) :
    readChars? (c :: rest) = (readChars? rest).map fun (s, rest) => (c :: s, rest) := by
  rw [readChars?.eq_def]
  simp [hquote, hbackslash, hcontrol]

/-- One character of a literal is read and the reading goes on behind it. -/
lemma readChars?_escapeChar (c : Char) (rest : List Char) :
    readChars? (escapeChar c ++ rest) = (readChars? rest).map fun (s, rest) => (c :: s, rest) := by
  rw [escapeChar]
  split_ifs with hquote hbackslash hcontrol hfeed hreturn htab hback hform
  · exact readChars?_short (by decide) (by rw [hquote]; rfl) rest
  · exact readChars?_short (by decide) (by rw [hbackslash]; rfl) rest
  · exact readChars?_short (by decide) (hfeed ▸ rfl) rest
  · exact readChars?_short (by decide) (hreturn ▸ rfl) rest
  · exact readChars?_short (by decide) (htab ▸ rfl) rest
  · have hc : c = '\x08' := Char.toNat_inj.mp hback
    exact readChars?_short (by decide) (hc ▸ rfl) rest
  · have hc : c = '\x0c' := Char.toNat_inj.mp hform
    exact readChars?_short (by decide) (hc ▸ rfl) rest
  · exact readChars?_code (codeEscape?_control hcontrol) rest
  · exact readChars?_plain hquote hbackslash hcontrol rest

lemma readChars?_escape : ∀ (s rest : List Char),
    readChars? (escape s ++ '"' :: rest) = some (s, rest)
  | [], rest => readChars?_quote rest
  | c :: s, rest => by
      have hcons : escape (c :: s) = escapeChar c ++ escape s := rfl
      rw [hcons, List.append_assoc, readChars?_escapeChar, readChars?_escape s rest]
      rfl

/-- **A literal is read back**, whatever follows it. -/
theorem readLiteral?_literal (s : String) (rest : List Char) :
    readLiteral? (literal s ++ rest) = some (s, rest) := by
  have hliteral : literal s ++ rest = '"' :: (escape s.toList ++ '"' :: rest) := by simp [literal]
  rw [hliteral, readLiteral?, readChars?_escape]
  simp

lemma literal_append_cancel {s t : String} {r₁ r₂ : List Char}
    (h : literal s ++ r₁ = literal t ++ r₂) : s = t ∧ r₁ = r₂ := by
  have hread := congrArg readLiteral? h
  rw [readLiteral?_literal, readLiteral?_literal] at hread
  simpa using hread

/-! ## Characters that a literal never holds -/

lemma le_hexDigit (n : ℕ) : 0x20 ≤ (hexDigit n).toNat := by
  have hall : ∀ d < 16, 0x20 ≤ (Nat.digitChar d).toNat := by decide
  exact hall _ (Nat.mod_lt _ (by norm_num))

lemma le_of_mem_escapeChar {c d : Char} (h : d ∈ escapeChar c) : 0x20 ≤ d.toNat := by
  rw [escapeChar] at h
  split_ifs at h with _ _ hcontrol
  on_goal 9 => exact List.mem_singleton.mp h ▸ not_lt.mp hcontrol
  all_goals
    simp only [List.mem_cons, List.not_mem_nil, or_false] at h
    rcases h with rfl | rfl | rfl | rfl | rfl | rfl <;> first | decide | exact le_hexDigit _

/-- A literal holds no line feed and no other control character below the space. -/
lemma le_of_mem_literal {s : String} {c : Char} (h : c ∈ literal s) : 0x20 ≤ c.toNat := by
  simp only [literal, List.mem_append, List.mem_singleton, escape, List.mem_flatMap] at h
  rcases h with (rfl | ⟨d, -, hc⟩) | rfl
  · decide
  · exact le_of_mem_escapeChar hc
  · decide

end Json

end WorkerGen
