import Mathlib
import WorkerGen.Proofs.Env.Written

/-!
# Values without quotes

A variable may stand in a line without quotes around its value.  How the line is laid out (`export`
in front, spaces around `=`, a comment behind the value) is to carry no meaning, and `read_iff` says
for which layouts that is so.

**Where it is not.**  White space in front of a value goes before a comment is looked for.  So a
comment behind an empty value loses the space that sets it off, and is taken for the value
(`value_of_empty`).  And `export` is taken away before the name is read, so a variable of that name
is lost if a space follows it (`line?_export_spaced`).

**The value.**  In any other layout the first ` #` behind a value is where its comment begins
(`beforeComment_append`), and what is trimmed is white space at either end (`value_of_isUnquoted`).
-/

namespace WorkerGen

open Text

namespace EnvFile

/-- A value that stands for itself without quotes: it has no white space at its ends and no quote in
front, it does not break the line, and it begins no comment. -/
structure IsUnquoted (value : List Char) : Prop where
  front : ∀ c ∈ value.head?, isBlank c = false ∧ c ≠ '"' ∧ c ≠ '\x27'
  back : ∀ c ∈ value.getLast?, isBlank c = false
  inLine : '\n' ∉ value
  noRemark : ¬[' ', '#'] <:+: value

/-- A variable with a value without quotes, and the layout of its line. -/
structure PlainSetting where
  exported : Bool
  name : String
  /-- How many spaces stand in front of `=`. -/
  before : Nat
  /-- How many spaces stand behind `=`. -/
  behind : Nat
  value : String
  /-- The text of a comment behind the value, which begins with ` #`. -/
  remark : Option (List Char)
  name_isVariableName : IsVariableName name.toList
  value_isUnquoted : IsUnquoted value.toList
  remark_inLine : ∀ text ∈ remark, '\n' ∉ text

/-- The names of variables are those that are taken for one. -/
lemma isVariableName_of_isName {name : List Char} (h : isName name = true) :
    IsVariableName name := by
  simp only [isName, isAlphanumeric, Bool.and_eq_true, Bool.not_eq_true', List.all_eq_true,
    Bool.or_eq_true, beq_iff_eq, or_assoc] at h
  obtain ⟨⟨hempty, hdigit⟩, hall⟩ := h
  cases name with
  | nil => exact absurd hempty (by decide)
  | cons c rest => exact ⟨hall, c, rest, rfl, hdigit⟩

/-- A number of spaces. -/
def spaces (n : Nat) : List Char := List.replicate n ' '

lemma isBlank_of_mem_spaces {n : Nat} : ∀ c ∈ spaces n, isBlank c = true := by
  intro c hc
  rw [List.eq_of_mem_replicate hc]
  decide

lemma not_mem_spaces {n : Nat} {c : Char} (hc : c ≠ ' ') : c ∉ spaces n := by
  intro hmem
  exact hc (List.eq_of_mem_replicate hmem)

/-! ## Comments

A comment begins at the first ` #`.  A value that holds none ends where its comment begins, as it
has no white space at its end that could make one up together with a `#` behind it. -/

lemma beforeComment_cons {c : Char} {s : List Char} (h : ¬(c = ' ' ∧ s.head? = some '#')) :
    beforeComment (c :: s) = c :: beforeComment s := by
  cases s with
  | nil => rfl
  | cons d s =>
      have hcut : (c = ' ' && d = '#') = false := by simpa using h
      rw [beforeComment, hcut, if_neg Bool.false_ne_true]

/-- A value that begins no comment ends where its comment begins, or at the end. -/
lemma beforeComment_append {value : List Char} (h : ¬[' ', '#'] <:+: value)
    (remark : Option (List Char)) : beforeComment (value ++ remarkText remark) = value := by
  induction value with
  | nil => cases remark <;> rfl
  | cons c value ih =>
      have hrest : ¬[' ', '#'] <:+: value := by
        intro hin
        exact h (hin.trans (List.suffix_cons c value).isInfix)
      have hcut : ¬(c = ' ' ∧ (value ++ remarkText remark).head? = some '#') := by
        rintro ⟨rfl, hhead⟩
        cases value with
        | nil => cases remark <;> simp [remarkText] at hhead
        | cons d value =>
            obtain rfl : d = '#' := by simpa using hhead
            exact h ⟨[], value, rfl⟩
      rw [List.cons_append, beforeComment_cons hcut, ih hrest]

/-! ## Values

The three cases of what stands behind `=`: a value, nothing, and nothing but a comment.  The last is
the one in which something else is read than was written. -/

section
variable {v : List Char} (h : IsUnquoted v)

include h

lemma IsUnquoted.trimEnd_append (remark : Option (List Char)) :
    trimEnd (v ++ remarkText remark) = v ++ remarkText (remark.map trimEnd) := by
  cases remark with
  | some text =>
      have hsplit : ∀ t, v ++ remarkText (some t) = (v ++ [' ']) ++ '#' :: t := by
        simp [remarkText]
      rw [Option.map_some, hsplit, hsplit, trimEnd_append_cons (by decide)]
  | none =>
      simp only [remarkText, List.append_nil, Option.map_none]
      cases hlast : v.getLast? with
      | none => rw [List.getLast?_eq_none_iff.mp hlast]; rfl
      | some c =>
          obtain ⟨front, rfl⟩ := List.getLast?_eq_some_iff.mp hlast
          exact trimEnd_append_cons (t := []) (h.back c hlast)

/-- A value is read, whatever spaces stand in front of it and whatever comment behind it. -/
lemma value_of_isUnquoted (hv : v ≠ []) (n : Nat) (remark : Option (List Char)) :
    value (trimEnd (spaces n ++ (v ++ remarkText remark))) = .ok v := by
  obtain ⟨c, rest, rfl⟩ := List.exists_cons_of_ne_nil hv
  obtain ⟨hblank, hdouble, hsingle⟩ := h.front c rfl
  have hcons : trimEnd (c :: (rest ++ remarkText remark))
      = c :: trimEnd (rest ++ remarkText remark) := trimEnd_append_cons (s := []) hblank
  have htrim : trimEnd (spaces n ++ (c :: rest ++ remarkText remark))
      = spaces n ++ (c :: rest ++ remarkText (remark.map trimEnd)) := by
    rw [← h.trimEnd_append, List.cons_append, trimEnd_append_cons hblank, hcons]
  have hstart : trimStart (spaces n ++ (c :: rest ++ remarkText (remark.map trimEnd)))
      = c :: (rest ++ remarkText (remark.map trimEnd)) := by
    rw [trimStart_append isBlank_of_mem_spaces, List.cons_append, trimStart_cons hblank]
  have hvalue : trimEnd (beforeComment (c :: (rest ++ remarkText (remark.map trimEnd))))
      = c :: rest := by
    have hends := h.trimEnd_append none
    rw [Option.map_none, remarkText, List.append_nil] at hends
    rw [← List.cons_append, beforeComment_append h.noRemark, hends]
  rw [value, htrim, hstart]
  simp [hdouble, hsingle, hvalue]

end

/-- An empty value is read if no comment follows. -/
lemma value_spaces (n : Nat) : value (trimEnd (spaces n)) = .ok [] := by
  have htrim : trimEnd ([] ++ spaces n) = trimEnd [] := trimEnd_append isBlank_of_mem_spaces
  rw [← List.nil_append (spaces n), htrim]
  rfl

/-- A comment behind an empty value is taken for the value. -/
lemma value_of_empty (n : Nat) (text : List Char) :
    ∃ t, value (trimEnd (spaces n ++ remarkText (some text))) = .ok ('#' :: t) := by
  have hsplit : spaces n ++ remarkText (some text) = (spaces n ++ [' ']) ++ '#' :: text := by
    simp [remarkText]
  have hspaces : ∀ c ∈ spaces n ++ [' '], isBlank c = true := by
    intro c hc
    rcases List.mem_append.mp hc with hc | hc
    · exact isBlank_of_mem_spaces c hc
    · rw [List.mem_singleton.mp hc]
      decide
  have hbefore : beforeComment ('#' :: trimEnd text) = '#' :: beforeComment (trimEnd text) :=
    beforeComment_cons (by simp)
  have hend : trimEnd ('#' :: beforeComment (trimEnd text))
      = '#' :: trimEnd (beforeComment (trimEnd text)) :=
    trimEnd_append_cons (s := []) (by decide)
  refine ⟨trimEnd (beforeComment (trimEnd text)), ?_⟩
  rw [hsplit, trimEnd_append_cons (by decide), value, trimStart_append hspaces,
    trimStart_cons (by decide)]
  simp [hbefore, hend]

/-! ## Lines

A line is trimmed, `export` is taken from its front, and it is split at the first `=`.  What stands
in front of that is a name, with white space behind it, and what stands behind is the value. -/

/-- A file of one line sets what its line sets. -/
lemma parse_singleton_iff {l : List Char} {v : String × String} (h : '\n' ∉ l) :
    parse (.ofList l) = .ok ⟨[v]⟩ ↔ line? l = .ok (some v) := by
  have hlines := assignments_lines [l] [] 1 (by simpa using h)
  rw [List.intercalate_singleton] at hlines
  rw [parse, String.toList_ofList, hlines, assignments]
  rcases line? l with fault | (_ | w) <;> simp [assignments, Except.map]

namespace PlainSetting

variable (s : PlainSetting)

/-- What stands behind `=`. -/
def tail : List Char := spaces s.behind ++ (s.value.toList ++ remarkText s.remark)

/-- What stands behind `export`, with something behind `=`. -/
def body (tail : List Char) : List Char := s.name.toList ++ (spaces s.before ++ '=' :: tail)

/-- The line of a variable. -/
def text : List Char := (if s.exported then "export ".toList else []) ++ s.body s.tail

/-! ### Layouts that carry no meaning

The two exceptions are conditions on the layout and on whether the name or the value is special, and
both are needed for the equivalence. -/

/-- The layouts that carry no meaning: no comment stands behind an empty value, and no space behind
the name `export` unless that is exported. -/
def IsHarmless : Prop :=
  (s.value = "" → s.remark = none) ∧ (s.name = "export" → s.exported = true ∨ s.before = 0)

lemma exists_body_eq_cons (tail : List Char) :
    ∃ c t, s.body tail = c :: t ∧ isNameChar c = true :=
  s.name_isVariableName.exists_append_eq_cons _

lemma trim_text :
    trim s.text = (if s.exported then "export ".toList else []) ++ s.body (trimEnd s.tail) := by
  have hfront : trimStart s.text = s.text := by
    obtain ⟨c, t, hcons, hc⟩ :=
      exists_exported_eq_cons s.exported (s.exists_body_eq_cons s.tail)
    rw [text, hcons, trimStart_cons (isBlank_of_isNameChar hc)]
  have hends : ∀ tail, (if s.exported then "export ".toList else []) ++ s.body tail
      = ((if s.exported then "export ".toList else []) ++ s.name.toList ++ spaces s.before)
        ++ '=' :: tail := by
    intro tail
    simp only [body, List.append_assoc]
  rw [trim, hfront, text, hends, hends, trimEnd_append_cons (by decide)]

lemma assigned_body (exported : Bool) (tail : List Char) : assigned exported (s.body tail) =
    (EnvFile.value tail).map fun v => (s.name, String.ofList v) := by
  have hname := s.name_isVariableName
  have hequals : '=' ∉ s.name.toList ++ spaces s.before := by
    rw [List.mem_append, not_or]
    exact ⟨hname.not_mem (by decide), not_mem_spaces (by decide)⟩
  have htrim : trimEnd (s.name.toList ++ spaces s.before) = s.name.toList := by
    rw [trimEnd_append isBlank_of_mem_spaces, hname.trimEnd]
  rw [assigned, body, ← List.append_assoc, splitAt?_append hequals]
  simp only [htrim, hname.isName, if_true, String.ofList_toList]

/-- Nothing is taken for `export` in front of a name that no space follows, or of another name. -/
lemma dropStart?_body (tail : List Char) (h : s.name = "export" → s.before = 0) :
    dropStart? "export ".toList (s.body tail) = none := by
  rw [body]
  cases hbefore : s.before with
  | zero => exact s.name_isVariableName.dropStart?_export tail
  | succ n =>
      have hspaces : spaces (n + 1) ++ '=' :: tail = ' ' :: (spaces n ++ '=' :: tail) := rfl
      rw [hspaces]
      cases hdrop : dropStart? "export ".toList
          (s.name.toList ++ ' ' :: (spaces n ++ '=' :: tail)) with
      | none => rfl
      | some rest =>
          obtain ⟨hname, -, -⟩ :=
            s.name_isVariableName.eq_of_dropStart?_export (by decide +kernel) hdrop
          have hzero := h (String.toList_inj.mp hname)
          omega

/-- Behind the name `export` and a space, the name of the variable is looked for. -/
lemma line?_export_spaced (hname : s.name = "export") (hexported : s.exported = false)
    (hbefore : s.before ≠ 0) : line? s.text = .error (.invalidName "") := by
  obtain ⟨n, hn⟩ := Nat.exists_eq_succ_of_ne_zero hbefore
  have htrim : trim s.text = "export ".toList ++ (spaces n ++ '=' :: trimEnd s.tail) := by
    have hexport : "export ".toList = "export".toList ++ [' '] := by decide +kernel
    rw [trim_text, hexported, body, hname, hn, hexport]
    simp [spaces, List.replicate_succ]
  have hassignment : assignment (trim s.text) = assigned true ('=' :: trimEnd s.tail) := by
    rw [htrim, assignment_exported (dropStart?_append _ _), trimStart_append isBlank_of_mem_spaces,
      trimStart_cons (by decide)]
  have hunnamed : assigned true ('=' :: trimEnd s.tail) = .error (.invalidName "") := rfl
  rw [hunnamed, htrim] at hassignment
  have hexport : "export ".toList = 'e' :: "xport ".toList := by decide +kernel
  rw [line?, htrim]
  rw [hexport] at hassignment ⊢
  exact congrArg (Except.map some) hassignment

/-- A line is read, unless its name is taken for `export`. -/
lemma line?_eq_map_value (h : s.name = "export" → s.exported = true ∨ s.before = 0) :
    line? s.text =
      (EnvFile.value (trimEnd s.tail)).map fun v => some (s.name, String.ofList v) := by
  have hplain : s.exported = false →
      dropStart? "export ".toList (s.body (trimEnd s.tail)) = none := by
    intro hexported
    apply s.dropStart?_body
    intro hname
    simpa [hexported] using h hname
  rw [line?_of_trim s.trim_text (s.exists_body_eq_cons _) hplain, assigned_body]
  cases EnvFile.value (trimEnd s.tail) <;> rfl

/-- A value is read as it stands, unless it is empty and a comment stands behind it. -/
lemma value_tail_iff : EnvFile.value (trimEnd s.tail) = .ok s.value.toList ↔
    (s.value = "" → s.remark = none) := by
  rw [tail]
  by_cases hvalue : s.value = ""
  · have hempty : s.value.toList = [] := by rw [hvalue]; rfl
    rw [hempty, List.nil_append]
    cases hremark : s.remark with
    | none => simp [remarkText, value_spaces]
    | some text =>
        obtain ⟨t, ht⟩ := value_of_empty s.behind text
        simp [ht, hvalue]
  · have hread := value_of_isUnquoted s.value_isUnquoted (by simpa using hvalue) s.behind s.remark
    simp [hread, hvalue]

lemma line?_text_iff : line? s.text = .ok (some (s.name, s.value)) ↔ s.IsHarmless := by
  by_cases hname : s.name = "export" → s.exported = true ∨ s.before = 0
  · rw [s.line?_eq_map_value hname, IsHarmless, ← value_tail_iff, and_iff_left hname]
    cases EnvFile.value (trimEnd s.tail) with
    | error fault => simp [Except.map]
    | ok v => simp [Except.map, ← String.toList_inj]
  · have hspaced := hname
    simp only [Classical.not_imp, not_or, Bool.not_eq_true] at hspaced
    rw [s.line?_export_spaced hspaced.1 hspaced.2.1 hspaced.2.2]
    simp only [reduceCtorEq, false_iff]
    rintro ⟨-, hharmless⟩
    exact hname hharmless

lemma newline_not_mem_text : '\n' ∉ s.text := by
  have hexport := newline_not_mem_exported s.exported
  have hname := s.name_isVariableName.not_mem (c := '\n') (by decide)
  have hspaces : ∀ n, '\n' ∉ spaces n := fun n => not_mem_spaces (by decide)
  have hvalue := s.value_isUnquoted.inLine
  have hremark := newline_not_mem_remarkText s.remark_inLine
  rw [text, body, tail]
  simp only [List.mem_append, List.mem_cons, not_or]
  exact ⟨hexport, hname, hspaces _, by decide, hspaces _, hvalue, hremark⟩

/-- **The layout of a line carries no meaning, but for two cases**: a line gives its variable the
value it was written with, whether it stands in a file or by itself, exactly if no comment stands
behind an empty value and no space behind the name `export`, unless that is exported. -/
theorem read_iff : (line? s.text = .ok (some (s.name, s.value)) ↔ s.IsHarmless) ∧
    (parse (.ofList s.text) = .ok ⟨[(s.name, s.value)]⟩ ↔ s.IsHarmless) := by
  refine ⟨s.line?_text_iff, ?_⟩
  rw [parse_singleton_iff s.newline_not_mem_text]
  exact s.line?_text_iff

/-- A comment behind an empty value. -/
def remarkOnly : PlainSetting where
  exported := false
  name := "KEY"
  before := 0
  behind := 0
  value := ""
  remark := some " note".toList
  name_isVariableName := isVariableName_of_isName (by decide +kernel)
  value_isUnquoted := ⟨by simp, by simp, by simp, by simp⟩
  remark_inLine := by decide +kernel

/-- A variable with the name `export` and a space behind it. -/
def spacedExport : PlainSetting where
  exported := false
  name := "export"
  before := 1
  behind := 1
  value := "x"
  remark := none
  name_isVariableName := isVariableName_of_isName (by decide +kernel)
  value_isUnquoted := by
    have hvalue : "x".toList = ['x'] := by decide +kernel
    have hblank : isBlank 'x' = false := by decide
    rw [hvalue]
    exact ⟨by simp [hblank], by simp [hblank], by simp, by decide⟩
  remark_inLine := by simp

/-- **The layout of a line can change what it sets**: a comment becomes the value, and a variable is
lost. -/
theorem not_read_remarkOnly :
    (String.ofList remarkOnly.text = "KEY= # note" ∧
      parse "KEY= # note" = .ok ⟨[("KEY", "# note")]⟩) ∧
    (String.ofList spacedExport.text = "export = x" ∧
      parse "export = x" = .error ⟨1, .invalidName ""⟩) ∧
    ¬∀ s : PlainSetting, parse (.ofList s.text) = .ok ⟨[(s.name, s.value)]⟩ := by
  refine ⟨by decide +kernel, by decide +kernel, ?_⟩
  intro hread
  exact absurd (hread remarkOnly) (by decide +kernel)

end PlainSetting

end EnvFile

end WorkerGen
