import Mathlib
import WorkerGen.Proofs.Dictionary
import WorkerGen.Proofs.Env.Offsets
import WorkerGen.Proofs.Text

/-!
# Written environment files

A file is written line by line: variables with their values in quotes, comments, and blank lines.
Whatever the values are, reading gives the variables back, and no cut of a text fails on the way
(`parse_written`).

Values may hold anything that their quotes can hold: in single quotes all but these and line breaks,
in double quotes all but these and what would be taken for the spelling of a line break.

The files that can be written are the values of a type, `Written`, whose fields are what has to hold
of them: the names are names, no variable is set twice, and each value suits its quotes.  That it is
a wide type is shown beside it (`exists_written`).  Everything about the layout is part of a line:
how far it is indented, whether it begins with `export`, and what comment stands behind the value.

* `line?_text` — a line sets what it was written for, by following the reader through the line from
  both ends: what is trimmed, what is taken from the front, and where the value ends.
* `assignments_lines` — lines are read one by one.
* `parse_eq_ok_iff` — a file is read exactly if every line sets a variable or none, and no variable
  is set twice.  This is about all texts, and says when reading fails as well.
-/

namespace WorkerGen

open Text

namespace EnvFile

/-! ## How files are written

A value in double quotes is spelled: a line break in it is written as a backslash and an `n`. -/

/-- A text that can be the name of a variable: letters, digits and `_`, and no digit in front. -/
def IsVariableName (name : List Char) : Prop :=
  (∀ c ∈ name, isLetter c ∨ isDigit c ∨ c = '_') ∧ ∃ c rest, name = c :: rest ∧ isDigit c = false

/-- What a value is quoted in. -/
inductive Quotes where
  | single
  | double

namespace Quotes

/-- The character on both sides of a value. -/
def mark : Quotes → Char
  | single => '\x27'
  | double => '"'

/-- Whether a value can stand in quotes. -/
def Hold : Quotes → List Char → Prop
  | single, value => '\x27' ∉ value ∧ '\n' ∉ value
  | double, value => '"' ∉ value ∧ ¬['\\', 'n'] <:+: value

/-- A value as it is written in quotes. -/
def spell : Quotes → List Char → List Char
  | single, value => value
  | double, value => value.flatMap fun c => if c = '\n' then ['\\', 'n'] else [c]

end Quotes

/-- White space within a line. -/
def IsSpace (s : List Char) : Prop := ∀ c ∈ s, isBlank c = true ∧ c ≠ '\n'

/-- A comment behind a value, if there is one. -/
def remarkText : Option (List Char) → List Char
  | none => []
  | some remark => ' ' :: '#' :: remark

/-- A variable with its value, as they stand in a line. -/
structure Setting where
  indent : List Char
  exported : Bool
  name : String
  quotes : Quotes
  value : String
  remark : Option (List Char)
  indent_isSpace : IsSpace indent
  name_isVariableName : IsVariableName name.toList
  quotes_hold : quotes.Hold value.toList
  remark_inLine : ∀ text ∈ remark, '\n' ∉ text

/-- The line of a variable. -/
def Setting.text (s : Setting) : List Char :=
  s.indent ++ (if s.exported then "export ".toList else []) ++ s.name.toList ++ ['='] ++
    [s.quotes.mark] ++ s.quotes.spell s.value.toList ++ [s.quotes.mark] ++ remarkText s.remark

/-- A line of a file. -/
inductive Line where
  | blank (space : List Char) (isSpace : IsSpace space)
  | comment (indent text : List Char) (isSpace : IsSpace indent) (inLine : '\n' ∉ text)
  | setting (s : Setting)

namespace Line

/-- A line as it is written. -/
def text : Line → List Char
  | blank space _ => space
  | comment indent text _ _ => indent ++ '#' :: text
  | setting s => s.text

/-- The variable that a line sets. -/
def var? : Line → Option (String × String)
  | blank .. | comment .. => none
  | setting s => some (s.name, s.value)

end Line

/-- A file with lines between line breaks, of which each sets another variable or none. -/
structure Written where
  lines : List Line
  distinct : ((lines.filterMap Line.var?).map (·.1)).Nodup

namespace Written

/-- The text of a file. -/
def text (w : Written) : String := .ofList (['\n'].intercalate (w.lines.map Line.text))

/-- The variables that a file sets, in order. -/
def file (w : Written) : EnvFile := ⟨w.lines.filterMap Line.var?⟩

end Written

lemma exists_lines : ∀ {vars : List (String × String)},
    (∀ v ∈ vars, IsVariableName v.1.toList ∧ ∃ q : Quotes, q.Hold v.2.toList) →
      ∃ lines : List Line, lines.filterMap Line.var? = vars
  | [], _ => ⟨[], rfl⟩
  | v :: rest, h => by
      obtain ⟨⟨hname, q, hhold⟩, hrest⟩ := List.forall_mem_cons.mp h
      obtain ⟨lines, rfl⟩ := exists_lines hrest
      exact ⟨.setting ⟨[], false, v.1, q, v.2, none, by simp [IsSpace], hname, hhold, by simp⟩ ::
        lines, rfl⟩

/-- **Every value can be written that some quotes can hold**, under any name that is valid and not
taken. -/
theorem exists_written {vars : List (String × String)} (hdistinct : (vars.map (·.1)).Nodup)
    (hvars : ∀ v ∈ vars, IsVariableName v.1.toList ∧ ∃ q : Quotes, q.Hold v.2.toList) :
    ∃ w : Written, w.file = ⟨vars⟩ := by
  obtain ⟨lines, rfl⟩ := exists_lines hvars
  exact ⟨⟨lines, hdistinct⟩, rfl⟩

/-! ## Names

The name of a variable is what stands in front of the first `=`.  Behind `export` it could be taken
for a part of a longer name, were it not for the white space between them. -/

lemma splitAt?_append {c : Char} : ∀ {s : List Char}, c ∉ s → ∀ t : List Char,
    splitAt? c (s ++ c :: t) = some (s, t)
  | [], _, _ => if_pos rfl
  | d :: s, h, t => by
      obtain ⟨hd, hs⟩ := not_or.mp (mt List.mem_cons.mpr h)
      rw [List.cons_append, splitAt?, if_neg (Ne.symm hd), splitAt?_append hs, Option.map_some]

/-- A character of a name. -/
def isNameChar (c : Char) : Bool := isAlphanumeric c || c == '_'

lemma isBlank_of_isNameChar {c : Char} (h : isNameChar c = true) : isBlank c = false := by
  have hc : 48 ≤ c.toNat ∧ c.toNat ≤ 122 := by
    simp only [isNameChar, isAlphanumeric, isLetter, isDigit, Bool.or_eq_true, Bool.and_eq_true,
      decide_eq_true_eq, beq_iff_eq, Char.le_def, UInt32.le_iff_toNat_le] at h
    rcases h with ((h | h) | h) | rfl
    · exact ⟨le_trans (by decide) h.1, h.2⟩
    · exact ⟨le_trans (by decide) h.1, le_trans h.2 (by decide)⟩
    · exact ⟨h.1, le_trans h.2 (by decide)⟩
    · decide
  simp only [isBlank, Bool.or_eq_false_iff, Bool.and_eq_false_iff, decide_eq_false_iff_not,
    beq_eq_false_iff_ne]
  omega

namespace IsVariableName

variable {name : List Char} (h : IsVariableName name)

include h

lemma isNameChar : ∀ c ∈ name, isNameChar c = true := by
  intro c hc
  rcases h.1 c hc with hc | hc | hc <;> simp [EnvFile.isNameChar, isAlphanumeric, hc]

lemma isName : isName name = true := by
  obtain ⟨c, rest, rfl, hdigit⟩ := h.2
  have hall : (c :: rest).all EnvFile.isNameChar = true := List.all_eq_true.mpr h.isNameChar
  simp only [EnvFile.isName, List.isEmpty_cons, List.head?_cons, Option.any_some, hdigit]
  exact hall

lemma trimEnd : trimEnd name = name :=
  trimEnd_eq_self fun c hc => isBlank_of_isNameChar (h.isNameChar c hc)

lemma not_mem {c : Char} (hc : EnvFile.isNameChar c = false) : c ∉ name :=
  fun hmem => absurd (h.isNameChar c hmem) (by simp [hc])

lemma exists_append_eq_cons (s : List Char) :
    ∃ c t, name ++ s = c :: t ∧ EnvFile.isNameChar c = true := by
  obtain ⟨c, rest, hname, -⟩ := h.2
  have hc := h.isNameChar c (by simp [hname])
  exact ⟨c, rest ++ s, by rw [hname, List.cons_append], hc⟩

/-- A name that some other character ends is taken for `export` only if it is that word and the
character is a space. -/
lemma eq_of_dropStart?_export {c : Char} {s rest : List Char} (hc : EnvFile.isNameChar c = false)
    (hdrop : dropStart? "export ".toList (name ++ c :: s) = some rest) :
    name = "export".toList ∧ c = ' ' ∧ rest = s := by
  have hexport : "export ".toList = "export".toList ++ [' '] := by decide +kernel
  have hword : ∀ d ∈ "export".toList, EnvFile.isNameChar d = true := by
    have hletters : "export".toList = ['e', 'x', 'p', 'o', 'r', 't'] := by decide +kernel
    rw [hletters]
    simp [EnvFile.isNameChar, isAlphanumeric, isLetter]
  have hspace : EnvFile.isNameChar ' ' = false := by decide +kernel
  have heq := eq_append_of_dropStart? hdrop
  rw [hexport, List.append_assoc, List.singleton_append] at heq
  -- both sides begin with a word, and neither goes on behind it
  have hwords := congrArg (List.takeWhile EnvFile.isNameChar) heq
  have hends := congrArg (List.dropWhile EnvFile.isNameChar) heq
  rw [List.takeWhile_append_of_pos h.isNameChar, List.takeWhile_append_of_pos hword,
    List.takeWhile_cons_of_neg (by simp [hc]), List.takeWhile_cons_of_neg (by simp [hspace]),
    List.append_nil, List.append_nil] at hwords
  rw [List.dropWhile_append_of_pos h.isNameChar, List.dropWhile_append_of_pos hword,
    List.dropWhile_cons_of_neg (by simp [hc]),
    List.dropWhile_cons_of_neg (by simp [hspace])] at hends
  obtain ⟨rfl, rfl⟩ := List.cons.inj hends
  exact ⟨hwords, rfl, rfl⟩

/-- A name behind `export` is set off by a space, and the name of a variable by its value. -/
lemma dropStart?_export (s : List Char) :
    dropStart? "export ".toList (name ++ '=' :: s) = none := by
  cases hdrop : dropStart? "export ".toList (name ++ '=' :: s) with
  | none => rfl
  | some rest =>
      obtain ⟨-, hequals, -⟩ := h.eq_of_dropStart?_export (by decide +kernel) hdrop
      exact absurd hequals (by decide)

end IsVariableName

/-! ## Quotes

A value in double quotes that holds a backslash in front of an `n` is kept out, since that would be
read as a line break.  A backslash in front of a line break does no harm: the spelling of the line
break takes no backslash from before it (`withBreaks_spell`). -/

namespace Quotes

lemma withBreaks_cons {c : Char} {s : List Char} (h : ¬(c = '\\' ∧ s.head? = some 'n')) :
    withBreaks (c :: s) = c :: withBreaks s := by
  cases s with
  | nil => rfl
  | cons d s =>
      have hbreak : (c = '\\' && d = 'n') = false := by simpa using h
      rw [withBreaks, hbreak, if_neg Bool.false_ne_true]

lemma spell_double_cons (c : Char) (s : List Char) :
    double.spell (c :: s) = (if c = '\n' then ['\\', 'n'] else [c]) ++ double.spell s := rfl

/-- A spelling begins with `n` only where the value does. -/
lemma head?_of_head?_spell {s : List Char} (h : (double.spell s).head? = some 'n') :
    s.head? = some 'n' := by
  cases s with
  | nil => exact h
  | cons c s =>
      rw [spell_double_cons] at h
      split_ifs at h with hc
      · simp at h
      · exact h

/-- A spelled value is read back: a spelled line break takes no backslash from before it. -/
lemma withBreaks_spell : ∀ {value : List Char}, ¬['\\', 'n'] <:+: value →
    withBreaks (double.spell value) = value
  | [], _ => rfl
  | c :: s, h => by
      have ih := withBreaks_spell fun hs => h (hs.trans (List.suffix_cons c s).isInfix)
      rw [spell_double_cons]
      split_ifs with hc
      · simp [withBreaks, ih, hc]
      · rw [List.singleton_append, withBreaks_cons, ih]
        rintro ⟨rfl, hhead⟩
        obtain ⟨t, rfl⟩ := List.head?_eq_some_iff.mp (head?_of_head?_spell hhead)
        exact h ⟨[], t, rfl⟩

/-- A spelling has no other characters than its value and those of a spelled line break. -/
lemma not_mem_spell_double {c : Char} {s : List Char} (hslash : c ≠ '\\') (hn : c ≠ 'n')
    (h : c ∉ s ∨ c = '\n') : c ∉ double.spell s := by
  intro hmem
  obtain ⟨d, hd, hc⟩ := List.mem_flatMap.mp hmem
  split_ifs at hc with hbreak
  · simp [hslash, hn] at hc
  · obtain rfl := List.mem_singleton.mp hc
    exact h.elim (fun hout => hout hd) hbreak

lemma isBlank_mark (q : Quotes) : isBlank q.mark = false := by cases q <;> decide

lemma value_mark (q : Quotes) (s : List Char) : value (q.mark :: s) = quotedValue q.mark s := by
  rw [value, trimStart_cons q.isBlank_mark]
  cases q <;> rfl

variable {q : Quotes} {value : List Char} (h : q.Hold value)

include h

lemma Hold.mark_not_mem_spell : q.mark ∉ q.spell value := by
  cases q with
  | single => exact h.1
  | double => exact not_mem_spell_double (by decide) (by decide) (.inl h.1)

lemma Hold.newline_not_mem_spell : '\n' ∉ q.spell value := by
  cases q with
  | single => exact h.2
  | double => exact not_mem_spell_double (by decide) (by decide) (.inr rfl)

end Quotes

/-! ## Settings

A setting is a line without its indentation and its line end. -/

lemma trimEnd_remarkText (remark : Option (List Char)) :
    trimEnd (remarkText remark) = remarkText (remark.map trimEnd) := by
  cases remark with
  | none => rfl
  | some text => exact trimEnd_append_cons (s := [' ']) (by decide)

lemma newline_not_mem_remarkText {remark : Option (List Char)} (h : ∀ text ∈ remark, '\n' ∉ text) :
    '\n' ∉ remarkText remark := by
  cases remark with
  | none => exact List.not_mem_nil
  | some text => simpa [remarkText] using h text rfl

/-- What stands in quotes is read, and a comment behind them is passed over. -/
lemma quotedValue_spell {q : Quotes} {v : List Char} (h : q.Hold v) (remark : Option (List Char)) :
    quotedValue q.mark (q.spell v ++ q.mark :: remarkText remark) = .ok v := by
  have hinner : (if q.mark = '"' then withBreaks (q.spell v) else q.spell v) = v := by
    cases q with
    | single => rfl
    | double => exact Quotes.withBreaks_spell h.2
  rw [quotedValue, splitAt?_append h.mark_not_mem_spell]
  cases remark with
  | none => exact congrArg Except.ok hinner
  | some text => exact congrArg Except.ok hinner

/-- A line that sets a variable begins with a letter of its name or of `export`. -/
lemma exists_exported_eq_cons (exported : Bool) {body : List Char}
    (hbody : ∃ c t, body = c :: t ∧ isNameChar c = true) :
    ∃ c t, (if exported then "export ".toList else []) ++ body = c :: t ∧ isNameChar c = true := by
  split_ifs
  · have hexport : "export ".toList = 'e' :: "xport ".toList := by decide +kernel
    exact ⟨'e', _, by rw [hexport, List.cons_append], by decide⟩
  · exact hbody

lemma newline_not_mem_exported (exported : Bool) :
    '\n' ∉ if exported then "export ".toList else [] := by
  split_ifs
  · decide +kernel
  · exact List.not_mem_nil

/-- The assignment of a line, when the white space around it is gone. -/
lemma line?_of_trim {exported : Bool} {s body : List Char}
    (htrim : trim s = (if exported then "export ".toList else []) ++ body)
    (hbody : ∃ c t, body = c :: t ∧ isNameChar c = true)
    (hplain : exported = false → dropStart? "export ".toList body = none) :
    line? s = (assigned exported body).map some := by
  obtain ⟨c, t, rfl, hc⟩ := hbody
  have hcomment : c ≠ '#' := by
    rintro rfl
    exact absurd hc (by decide)
  rw [line?, htrim]
  cases exported with
  | true =>
      have hexport : "export ".toList = 'e' :: "xport ".toList := by decide +kernel
      have hassignment := assignment_exported (dropStart?_append "export ".toList (c :: t))
      rw [trimStart_cons (isBlank_of_isNameChar hc)] at hassignment
      rw [if_pos rfl, ← hassignment, hexport]
      rfl
  | false =>
      rw [if_neg Bool.false_ne_true, List.nil_append, ← assignment_plain (hplain rfl)]
      simp [hcomment]

namespace Setting

variable (s : Setting)

/-- A setting without what precedes the name, and with another comment. -/
def body (remark : Option (List Char)) : List Char :=
  s.name.toList ++ '=' :: s.quotes.mark ::
    (s.quotes.spell s.value.toList ++ s.quotes.mark :: remarkText remark)

/-- What stands between the indentation and the name. -/
def start : List Char := if s.exported then "export ".toList else []

lemma text_eq : s.text = s.indent ++ (s.start ++ s.body s.remark) := by
  simp only [text, start, body, List.append_assoc, List.cons_append, List.nil_append]

lemma exists_body_eq_cons (remark : Option (List Char)) :
    ∃ c t, s.body remark = c :: t ∧ isNameChar c = true :=
  s.name_isVariableName.exists_append_eq_cons _

/-- A line without the white space around it. -/
lemma trim_text : trim s.text = s.start ++ s.body (s.remark.map Text.trimEnd) := by
  have hindent : trimStart s.text = s.start ++ s.body s.remark := by
    obtain ⟨c, t, hcons, hc⟩ :=
      exists_exported_eq_cons s.exported (s.exists_body_eq_cons s.remark)
    rw [text_eq, trimStart_append fun c hc => (s.indent_isSpace c hc).1, start, hcons,
      trimStart_cons (isBlank_of_isNameChar hc)]
  -- the closing mark is not blank, so only what stands behind it can lose anything
  have hends : ∀ remark, s.start ++ s.body remark = (s.start ++ s.name.toList ++ '=' ::
      s.quotes.mark :: s.quotes.spell s.value.toList) ++ s.quotes.mark :: remarkText remark := by
    simp [body]
  rw [trim, hindent, hends, hends, trimEnd_append_cons s.quotes.isBlank_mark, trimEnd_remarkText]

lemma assigned_body (exported : Bool) (remark : Option (List Char)) :
    assigned exported (s.body remark) = .ok (s.name, s.value) := by
  have hname := s.name_isVariableName
  rw [assigned, body, splitAt?_append (hname.not_mem (by decide))]
  simp only [hname.trimEnd, hname.isName, if_true, Quotes.value_mark,
    quotedValue_spell s.quotes_hold, Except.map, String.ofList_toList]

theorem line?_text : line? s.text = .ok (some (s.name, s.value)) := by
  have hplain : s.exported = false →
      dropStart? "export ".toList (s.body (s.remark.map Text.trimEnd)) = none :=
    fun _ => s.name_isVariableName.dropStart?_export _
  rw [line?_of_trim s.trim_text (s.exists_body_eq_cons _) hplain, assigned_body]
  rfl

lemma newline_not_mem_text : '\n' ∉ s.text := by
  have hindent : '\n' ∉ s.indent := fun h => (s.indent_isSpace _ h).2 rfl
  have hstart : '\n' ∉ s.start := newline_not_mem_exported s.exported
  have hname := s.name_isVariableName.not_mem (c := '\n') (by decide)
  have hmark : '\n' ≠ s.quotes.mark := by cases s.quotes <;> decide
  have hvalue := s.quotes_hold.newline_not_mem_spell
  have hremark := newline_not_mem_remarkText s.remark_inLine
  simp [text_eq, body, hindent, hstart, hname, hmark, hvalue, hremark]

end Setting

/-! ## Lines

A line is read by itself, whatever stands in the lines before it, and a carriage return at its end
counts as white space. -/

namespace Line

/-- **A line sets what it was written for.** -/
theorem line?_text : ∀ l : Line, line? l.text = .ok l.var?
  | blank space isSpace => by
      have hnone : trimStart space = [] :=
        List.dropWhile_eq_nil_iff.mpr fun c hc => (isSpace c hc).1
      rw [line?, text, trim, hnone]
      rfl
  | comment indent text isSpace _ => by
      have htrim : trim (indent ++ '#' :: text) = '#' :: trimEnd text := by
        rw [trim, trimStart_append fun c hc => (isSpace c hc).1, trimStart_cons (by decide)]
        exact trimEnd_append_cons (s := []) (by decide)
      rw [line?, Line.text, htrim]
      rfl
  | setting s => s.line?_text

lemma newline_not_mem_text : ∀ l : Line, '\n' ∉ l.text
  | blank _ isSpace => fun h => (isSpace _ h).2 rfl
  | comment _ _ isSpace inLine => by
      rw [text, List.mem_append, List.mem_cons, not_or, not_or]
      exact ⟨fun h => (isSpace _ h).2 rfl, by decide, inLine⟩
  | setting s => s.newline_not_mem_text

end Line

lemma line?_congr {s t : List Char} (h : trim s = trim t) : line? s = line? t := by
  rw [line?, line?, h]

/-- The carriage return at the end of a line does not matter. -/
lemma line?_endedLine (s : List Char) : line? (endedLine s.reverse) = line? s := by
  induction s using List.reverseRecOn with
  | nil => rfl
  | append_singleton s c _ =>
      rw [List.reverse_append, List.reverse_singleton, List.singleton_append]
      by_cases hc : c = '\r'
      · subst hc
        rw [endedLine, List.reverse_reverse]
        exact (line?_congr (trim_append_blank (by decide))).symm
      · have hkept : endedLine (c :: s.reverse) = (c :: s.reverse).reverse := by
          rw [endedLine]
          simpa using hc
        rw [hkept]
        simp

lemma linesAfter_append {s : List Char} (h : '\n' ∉ s) (begun t : List Char) :
    linesAfter begun (s ++ t) = linesAfter (s.reverse ++ begun) t := by
  induction s generalizing begun with
  | nil => rfl
  | cons c s ih =>
      obtain ⟨hc, hs⟩ := not_or.mp (mt List.mem_cons.mpr h)
      rw [List.cons_append, linesAfter, if_neg (Ne.symm hc), ih hs]
      simp

/-- Lines are read as if they had been given one by one, the last of them ended or not. -/
lemma assignments_lines : ∀ (ls : List (List Char)) (names : List String) (number : Nat),
    (∀ l ∈ ls, '\n' ∉ l) →
      assignments names number (lines (['\n'].intercalate ls)) = assignments names number ls
  | [], _, _, _ => rfl
  | [l], names, number, h => by
      have hlast := linesAfter_append (h l (by simp)) [] []
      rw [List.append_nil, List.append_nil, linesAfter] at hlast
      rw [List.intercalate_singleton, lines, hlast]
      by_cases hl : l = []
      · subst hl
        rfl
      · simp [hl]
  | l :: l' :: rest, names, number, h => by
      obtain ⟨hl, hrest⟩ := List.forall_mem_cons.mp h
      have ih := fun names number => assignments_lines (l' :: rest) names number hrest
      have hlines : lines (['\n'].intercalate (l :: l' :: rest))
          = endedLine l.reverse :: lines (['\n'].intercalate (l' :: rest)) := by
        rw [List.intercalate_cons_cons, List.append_assoc, lines, linesAfter_append hl,
          List.append_nil, List.singleton_append, linesAfter, if_pos rfl, lines]
      rw [hlines, assignments, assignments.eq_def names number (l :: _), line?_endedLine]
      simp only [ih]

/-! ## Files

What lines set is a relation between lines and variables, `Sets`, which is read off the lines from
the front as the reader does it. -/

/-- Whether lines set variables, in order: each of them sets one or none. -/
inductive Sets : List (List Char) → List (String × String) → Prop
  | nil : Sets [] []
  | skipped {l : List Char} {rest : List (List Char)} {vars : List (String × String)} :
      line? l = .ok none → Sets rest vars → Sets (l :: rest) vars
  | set {l : List Char} {rest : List (List Char)} {v : String × String}
      {vars : List (String × String)} :
      line? l = .ok (some v) → Sets rest vars → Sets (l :: rest) (v :: vars)

lemma sets_text : ∀ ls : List Line, Sets (ls.map Line.text) (ls.filterMap Line.var?)
  | [] => .nil
  | l :: rest => by
      have hl := l.line?_text
      cases hvar : l.var? with
      | none =>
          rw [List.filterMap_cons_none hvar]
          exact .skipped (hvar ▸ hl) (sets_text rest)
      | some v =>
          rw [List.filterMap_cons_some hvar]
          exact .set (hvar ▸ hl) (sets_text rest)

/-- Variables are read from lines that set them, if they differ from each other and from those that
are already set. -/
lemma Sets.assignments_eq {ls : List (List Char)} {vars : List (String × String)}
    (h : Sets ls vars) : ∀ {names : List String} {number : Nat},
      (names ++ vars.map (·.1)).Nodup → assignments names number ls = .ok vars := by
  induction h with
  | nil => exact fun _ => rfl
  | skipped hl _ ih =>
      intro names number hdistinct
      rw [assignments, hl]
      exact ih hdistinct
  | @set l rest v vars hl _ ih =>
      intro names number hdistinct
      rw [List.map_cons, List.nodup_middle] at hdistinct
      have hnew : v.1 ∉ names := fun hmem => (List.nodup_cons.mp hdistinct).1 (by simp [hmem])
      have hrest : assignments (v.1 :: names) (number + 1) rest = .ok vars := ih hdistinct
      rw [assignments, hl]
      simp [hnew, hrest, Except.map]

/-- What is read from lines is what they set, and a variable is set once. -/
lemma sets_of_assignments {ls : List (List Char)} {names : List String} {number : Nat}
    {vars : List (String × String)} (h : assignments names number ls = .ok vars)
    (hnames : names.Nodup) : Sets ls vars ∧ (names ++ vars.map (·.1)).Nodup := by
  induction ls generalizing names number vars with
  | nil =>
      obtain rfl := Except.ok.inj h
      exact ⟨.nil, by simpa using hnames⟩
  | cons l rest ih =>
      rw [assignments] at h
      rcases hl : line? l with fault | (_ | ⟨name, value⟩) <;> rw [hl] at h
      · exact absurd h (by simp)
      · obtain ⟨hrest, hdistinct⟩ := ih h hnames
        exact ⟨.skipped hl hrest, hdistinct⟩
      · dsimp only at h
        split_ifs at h with hmem
        cases hread : assignments (name :: names) (number + 1) rest with
        | error e => simp [hread, Except.map] at h
        | ok vars' =>
            rw [hread] at h
            obtain rfl := Except.ok.inj h
            have hnew : (name :: names).Nodup := List.nodup_cons.mpr ⟨by simpa using hmem, hnames⟩
            obtain ⟨hrest, hdistinct⟩ := ih hread hnew
            exact ⟨.set hl hrest, List.nodup_middle.mpr hdistinct⟩

/-- **A file is read if it is well formed as a whole**: every line sets a variable or none, and no
variable is set twice. -/
theorem parse_eq_ok_iff {text : String} {file : EnvFile} :
    parse text = .ok file ↔
      Sets (lines text.toList) file.vars ∧ (file.vars.map (·.1)).Nodup := by
  refine ⟨fun h => ?_, fun ⟨hsets, hdistinct⟩ => ?_⟩
  · rw [parse] at h
    cases hvars : assignments [] 1 (lines text.toList) with
    | error e => simp [hvars, Except.map] at h
    | ok vars =>
        rw [hvars] at h
        obtain rfl := Except.ok.inj h
        exact sets_of_assignments hvars .nil
  · rw [parse, hsets.assignments_eq hdistinct]
    rfl

/-- A file gives its variables the values that its dictionary gives them. -/
theorem get?_toDictionary_of_parse {text : String} {file : EnvFile} (h : parse text = .ok file)
    (name : String) : file.get? name = file.toDictionary.get? name :=
  (Dictionary.get?_ofList (parse_eq_ok_iff.mp h).2 name).symm

/-- **Written files are read back.**  The variables come in the order of the lines, they are found
by their names, and no cut of any text fails. -/
theorem parse_written (w : Written) :
    parse w.text = .ok w.file ∧ (∀ name, w.file.get? name = w.file.toDictionary.get? name) ∧
      ∀ text, parseByOffsets text = some (parse text) := by
  have hread : parse w.text = .ok w.file := by
    have hinLine : ∀ l ∈ w.lines.map Line.text, '\n' ∉ l := by
      simpa using fun l _ => Line.newline_not_mem_text l
    rw [parse, Written.text, String.toList_ofList, assignments_lines _ _ _ hinLine,
      (sets_text w.lines).assignments_eq w.distinct]
    rfl
  exact ⟨hread, get?_toDictionary_of_parse hread, parseByOffsets_eq⟩

example : parse "# a\n  export export='\\n = \"#\"' # b\n\nB=\"it's\\\\\\n\"\n"
    = .ok ⟨[("export", "\\n = \"#\""), ("B", "it's\\\\\n")]⟩ := by
  decide +kernel

end EnvFile

end WorkerGen
