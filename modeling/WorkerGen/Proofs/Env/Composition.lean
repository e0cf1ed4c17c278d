import Mathlib
import WorkerGen.Proofs.Env.Written
import WorkerGen.Proofs.FirstFault

/-!
# Texts one behind the other

A text that ends its last line can be followed by another, and both are read as if they had been
read one by one (`parse_append`): the variables of the second come behind those of the first, its
lines are counted on, and it may not set a variable that the first has set.

**Lines.**  The lines of both texts are those of the first and then those of the second
(`lines_append`), whatever line ends they have.

**Errors.**  An error is that of the first line that is malformed or sets what is already set, so
what is wrong with a line can be told without reading the others (`assignments_eq_error_iff`).

The reader counts lines and remembers names as it goes.  Both are arguments of its recursion, so the
second text is read by the same function with other arguments (`parse_append_eq_bind`): the number
of lines before it, and the names that are taken.  What is left is to say how the result depends on
these two, which `BadLine` does for errors and `assignments_eq_ok_iff` for variables.
-/

namespace WorkerGen

namespace EnvFile

/-! ## Lines

A line feed ends a line, and one carriage return in front of it belongs to the line end.  The last
line may do without. -/

/-- A text that does not end within a line. -/
def IsEnded (s : List Char) : Prop := ∀ c ∈ s.getLast?, c = '\n'

lemma IsEnded.eq_nil_or {s : List Char} (h : IsEnded s) : s = [] ∨ ∃ t, s = t ++ ['\n'] := by
  cases hlast : s.getLast? with
  | none => exact Or.inl (List.getLast?_eq_none_iff.mp hlast)
  | some c =>
      obtain ⟨t, rfl⟩ := List.getLast?_eq_some_iff.mp hlast
      rw [h c hlast]
      exact Or.inr ⟨t, rfl⟩

lemma linesAfter_append_newline (begun s t : List Char) :
    linesAfter begun (s ++ '\n' :: t) = linesAfter begun (s ++ ['\n']) ++ lines t := by
  induction s generalizing begun with
  | nil => rfl
  | cons c s ih =>
      rw [List.cons_append, List.cons_append, linesAfter, linesAfter]
      split_ifs
      · rw [ih, List.cons_append]
      · exact ih (c :: begun)

lemma length_linesAfter (begun s : List Char) :
    (linesAfter begun (s ++ ['\n'])).length = (s ++ ['\n']).count '\n' := by
  induction s generalizing begun with
  | nil => rfl
  | cons c s ih =>
      rw [List.cons_append, linesAfter]
      split_ifs with hc
      · rw [hc, List.length_cons, ih, List.count_cons_self]
      · rw [ih, List.count_cons_of_ne hc]

section
variable {s : List Char} (h : IsEnded s)

include h

/-- The last line of an ended text and the first of another do not run into each other. -/
lemma lines_append (t : List Char) : lines (s ++ t) = lines s ++ lines t := by
  obtain rfl | ⟨s, rfl⟩ := h.eq_nil_or
  · rfl
  · have hsplit : s ++ ['\n'] ++ t = s ++ '\n' :: t := by simp
    rw [hsplit]
    exact linesAfter_append_newline [] s t

lemma length_lines : (lines s).length = s.count '\n' := by
  obtain rfl | ⟨s, rfl⟩ := h.eq_nil_or
  · rfl
  · exact length_linesAfter [] s

end

/-! ## Faults

A line is judged by itself and by the lines before it.  Only what those set matters, so lines that
set nothing can be left out of what is remembered. -/

/-- A line sets a variable of a name. -/
def SetsName (l : List Char) (name : String) : Prop := ∃ value, line? l = .ok (some (name, value))

/-- What is wrong with a line that stands behind others, if some names are already taken. -/
inductive LineFault (taken : List String) (before : List (List Char)) (l : List Char) :
    EnvFault → Prop
  | malformed {fault : EnvFault} : line? l = .error fault → LineFault taken before l fault
  | repeated {name : String} : SetsName l name → (name ∈ taken ∨ ∃ b ∈ before, SetsName b name) →
      LineFault taken before l (.repeated name)

/-- The error of a line, if `number` lines precede those that it stands behind. -/
def BadLine (taken : List String) (number : Nat) (before : List (List Char)) (l : List Char)
    (e : EnvError) : Prop :=
  e.line = number + before.length + 1 ∧ LineFault taken before l e.fault

section
variable {taken : List String} {number : Nat} {before : List (List Char)} {l m : List Char}
  {e : EnvError}

lemma not_lineFault_of_none {fault : EnvFault} (hl : line? l = .ok none) :
    ¬LineFault taken before l fault := by
  rintro (hfault | ⟨⟨value, hset⟩, -⟩)
  · simp [hl] at hfault
  · simp [hl] at hset

/-- A malformed line is at fault whatever stands before it. -/
lemma lineFault_of_error {fault fault' : EnvFault} (hl : line? l = .error fault) :
    LineFault taken before l fault' ↔ fault' = fault := by
  constructor
  · rintro (hfault | ⟨⟨value, hset⟩, -⟩)
    · simpa [hl, eq_comm] using hfault
    · simp [hl] at hset
  · rintro rfl
    exact .malformed hl

/-- A line that sets a variable is at fault only if that is set already. -/
lemma lineFault_of_some {v : String × String} {fault : EnvFault} (hl : line? l = .ok (some v)) :
    LineFault taken before l fault ↔
      (v.1 ∈ taken ∨ ∃ b ∈ before, SetsName b v.1) ∧ fault = .repeated v.1 := by
  constructor
  · rintro (hfault | ⟨⟨value, hset⟩, hrepeated⟩)
    · simp [hl] at hfault
    · obtain rfl : v = _ := by simpa [hl] using hset
      exact ⟨hrepeated, rfl⟩
  · rintro ⟨hrepeated, rfl⟩
    exact .repeated ⟨v.2, hl⟩ hrepeated

lemma lineFault_congr {taken' : List String} {before' : List (List Char)} {fault : EnvFault}
    (h : ∀ name, (name ∈ taken ∨ ∃ b ∈ before, SetsName b name) ↔
      (name ∈ taken' ∨ ∃ b ∈ before', SetsName b name)) :
    LineFault taken before l fault ↔ LineFault taken' before' l fault := by
  rcases hl : line? l with fault' | (_ | v)
  · rw [lineFault_of_error hl, lineFault_of_error hl]
  · simp [not_lineFault_of_none hl]
  · rw [lineFault_of_some hl, lineFault_of_some hl, h v.1]

lemma lineFault_cons_none {fault : EnvFault} (hm : line? m = .ok none) :
    LineFault taken (m :: before) l fault ↔ LineFault taken before l fault := by
  apply lineFault_congr
  simp [SetsName, hm]

lemma lineFault_cons_some {v : String × String} {fault : EnvFault}
    (hm : line? m = .ok (some v)) :
    LineFault taken (m :: before) l fault ↔ LineFault (v.1 :: taken) before l fault := by
  apply lineFault_congr
  intro name
  have hsets : SetsName m name ↔ name = v.1 := by
    simp [SetsName, hm, Prod.ext_iff, eq_comm]
  rw [List.exists_mem_cons_iff, hsets, List.mem_cons, or_left_comm, or_assoc]

lemma line_cons : number + (m :: before).length + 1 = number + 1 + before.length + 1 := by
  rw [List.length_cons]
  omega

lemma badLine_cons_none (hm : line? m = .ok none) :
    BadLine taken number (m :: before) l e ↔ BadLine taken (number + 1) before l e := by
  rw [BadLine, BadLine, line_cons, lineFault_cons_none hm]

lemma badLine_cons_some {v : String × String} (hm : line? m = .ok (some v)) :
    BadLine taken number (m :: before) l e ↔ BadLine (v.1 :: taken) (number + 1) before l e := by
  rw [BadLine, BadLine, line_cons, lineFault_cons_some hm]

/-- The error of the first of all lines. -/
lemma badLine_nil_iff : BadLine taken number [] l e ↔
    ∃ fault, LineFault taken [] l fault ∧ e = ⟨number + 1, fault⟩ := by
  constructor
  · rintro ⟨hline, hfault⟩
    refine ⟨e.fault, hfault, ?_⟩
    cases e
    simpa using hline
  · rintro ⟨fault, hfault, rfl⟩
    exact ⟨rfl, hfault⟩

end

/-! ## Readings

Reading fails with the first bad line or gives what the lines set, and it is said of both when they
happen, for lines that stand behind others. -/

/-- What is read from lines is what the first of them set, and then what the others set beside
them. -/
lemma assignments_append (names : List String) (number : Nat) (s t : List (List Char)) :
    assignments names number (s ++ t) = assignments names number s >>= fun vars =>
      (assignments ((vars.map (·.1)).reverse ++ names) (number + s.length) t).map (vars ++ ·) := by
  induction s generalizing names number with
  | nil =>
      change assignments names number t = (assignments names number t).map ([] ++ ·)
      cases assignments names number t <;> rfl
  | cons l s ih =>
      have hlength : number + (l :: s).length = number + 1 + s.length := by
        rw [List.length_cons, Nat.add_right_comm, Nat.add_assoc]
      rw [List.cons_append, assignments, assignments, hlength]
      rcases line? l with fault | (_ | ⟨name, value⟩)
      · rfl
      · exact ih names (number + 1)
      · dsimp only
        split_ifs with htaken
        · rfl
        · rw [ih]
          cases assignments (name :: names) (number + 1) s with
          | error e => rfl
          | ok vars =>
              have hnames : (((name, value) :: vars).map (·.1)).reverse ++ names
                  = (vars.map (·.1)).reverse ++ name :: names := by simp
              simp only [Except.map, bind, Except.bind, hnames]
              cases assignments ((vars.map (·.1)).reverse ++ name :: names)
                (number + 1 + s.length) t <;> rfl

/-- **Reading fails at the first bad line**, and says what is wrong with it. -/
theorem assignments_eq_error_iff {taken : List String} {number : Nat} {ls : List (List Char)}
    {e : EnvError} : assignments taken (number + 1) ls = .error e ↔
      FirstFault (BadLine taken number) ls e := by
  induction ls generalizing taken number with
  | nil => simp [assignments, not_firstFault_nil]
  | cons l ls ih =>
      rw [firstFault_cons, assignments]
      rcases hl : line? l with fault | (_ | ⟨name, value⟩)
      · simp [badLine_nil_iff, lineFault_of_error hl, eq_comm]
      · rw [firstFault_congr fun before m e => badLine_cons_none hl, ← ih]
        simp [badLine_nil_iff, not_lineFault_of_none hl]
      · rw [firstFault_congr fun before m e => badLine_cons_some hl, ← ih]
        by_cases htaken : name ∈ taken
        · simp [badLine_nil_iff, lineFault_of_some hl, htaken, eq_comm]
        · simp only [badLine_nil_iff, lineFault_of_some hl, htaken]
          cases assignments (name :: taken) (number + 1 + 1) ls <;> simp [htaken, Except.map]

/-- Lines are read to variables that they set, if those are distinct and not yet taken. -/
lemma assignments_eq_ok_iff {taken : List String} {number : Nat} {ls : List (List Char)}
    {vars : List (String × String)} (htaken : taken.Nodup) :
    assignments taken number ls = .ok vars ↔
      (Sets ls vars ∧ (vars.map (·.1)).Nodup) ∧ ∀ v ∈ vars, v.1 ∉ taken := by
  have hdistinct : (taken ++ vars.map (·.1)).Nodup ↔
      (vars.map (·.1)).Nodup ∧ ∀ v ∈ vars, v.1 ∉ taken := by
    rw [List.nodup_append, and_iff_right htaken, and_congr_right_iff]
    intro _
    constructor
    · intro hne v hv hmem
      exact hne v.1 hmem v.1 (List.mem_map_of_mem hv) rfl
    · rintro hnew name hname _ hmem rfl
      obtain ⟨v, hv, rfl⟩ := List.mem_map.mp hmem
      exact hnew v hv hname
  rw [and_assoc, ← hdistinct]
  constructor
  · intro hread
    exact sets_of_assignments hread htaken
  · rintro ⟨hsets, hnodup⟩
    exact hsets.assignments_eq hnodup

/-! ## Texts

Three things can come of two texts: the first cannot be read, the second cannot be read behind the
first, or both can. -/

section
variable {a : String} (b : String) (ha : IsEnded a.toList)

include ha

/-- The second of two texts is read with the names of the first taken and its lines counted. -/
lemma parse_append_eq_bind : parse (a ++ b) = parse a >>= fun first =>
    (assignments (first.vars.map (·.1)).reverse ((lines a.toList).length + 1)
      (lines b.toList)).map fun vars => ⟨first.vars ++ vars⟩ := by
  rw [parse, parse, String.toList_append, lines_append ha, assignments_append, Nat.add_comm 1]
  cases assignments [] 1 (lines a.toList) with
  | error e => rfl
  | ok vars =>
      simp only [Except.map, bind, Except.bind, List.append_nil]
      cases assignments (vars.map (·.1)).reverse ((lines a.toList).length + 1) (lines b.toList) <;>
        rfl

lemma parse_append_of_error {e : EnvError} (he : parse a = .error e) :
    parse (a ++ b) = .error e := by
  rw [parse_append_eq_bind b ha, he]
  rfl

variable {first : EnvFile} (hfirst : parse a = .ok first)

include hfirst

lemma parse_append_of_ok : parse (a ++ b) =
    (assignments (first.vars.map (·.1)).reverse ((lines a.toList).length + 1)
      (lines b.toList)).map fun vars => ⟨first.vars ++ vars⟩ := by
  rw [parse_append_eq_bind b ha, hfirst]
  rfl

/-- The variables of the second text come behind those of the first, and are others. -/
lemma parse_append_eq_ok_iff {file : EnvFile} : parse (a ++ b) = .ok file ↔
    ∃ second, parse b = .ok second ∧ (∀ v ∈ second.vars, v.1 ∉ first.vars.map (·.1)) ∧
      file.vars = first.vars ++ second.vars := by
  have htaken : (first.vars.map (·.1)).reverse.Nodup :=
    List.nodup_reverse.mpr (parse_eq_ok_iff.mp hfirst).2
  rw [parse_append_of_ok b ha hfirst]
  constructor
  · intro hread
    cases hvars : assignments (first.vars.map (·.1)).reverse ((lines a.toList).length + 1)
      (lines b.toList) with
    | error e => simp [hvars, Except.map] at hread
    | ok vars =>
        rw [hvars] at hread
        obtain rfl := Except.ok.inj hread
        obtain ⟨hwhole, hnew⟩ := (assignments_eq_ok_iff htaken).mp hvars
        refine ⟨⟨vars⟩, parse_eq_ok_iff.mpr hwhole, ?_, rfl⟩
        simpa only [List.mem_reverse] using hnew
  · rintro ⟨second, hsecond, hnew, hfile⟩
    have hothers : ∀ v ∈ second.vars, v.1 ∉ (first.vars.map (·.1)).reverse := by
      simpa only [List.mem_reverse] using hnew
    rw [(assignments_eq_ok_iff htaken).mpr ⟨parse_eq_ok_iff.mp hsecond, hothers⟩, Except.map,
      ← hfile]

/-- The second text fails where one of its lines is bad behind the first text. -/
lemma parse_append_eq_error_iff {e : EnvError} : parse (a ++ b) = .error e ↔
    FirstFault (BadLine (first.vars.map (·.1)) (lines a.toList).length) (lines b.toList) e := by
  have hreversed : ∀ before l e,
      BadLine (first.vars.map (·.1)).reverse (lines a.toList).length before l e ↔
        BadLine (first.vars.map (·.1)) (lines a.toList).length before l e := by
    intro before l e
    rw [BadLine, BadLine, lineFault_congr]
    simp
  rw [parse_append_of_ok b ha hfirst, ← firstFault_congr hreversed, ← assignments_eq_error_iff]
  cases assignments (first.vars.map (·.1)).reverse ((lines a.toList).length + 1)
    (lines b.toList) <;> simp [Except.map]

end

/-- **A text behind another is read as if it stood alone**, as long as it sets other variables.  If
it cannot be read so, both fail with the first of its lines that is bad, and the lines of the first
text are counted.  What is read has the variables in the order of the lines, each of them once. -/
theorem parse_append {a : String} (b : String) (ha : IsEnded a.toList) :
    (lines a.toList).length = a.toList.count '\n' ∧
    (∀ e, parse a = .error e → parse (a ++ b) = .error e) ∧
    (∀ first, parse a = .ok first →
      (∀ file, parse (a ++ b) = .ok file ↔
        ∃ second, parse b = .ok second ∧ (∀ v ∈ second.vars, v.1 ∉ first.vars.map (·.1)) ∧
          file.vars = first.vars ++ second.vars) ∧
      ∀ e, parse (a ++ b) = .error e ↔
        FirstFault (BadLine (first.vars.map (·.1)) (lines a.toList).length) (lines b.toList) e) ∧
    ∀ text file, parse text = .ok file →
      Sets (lines text.toList) file.vars ∧ (file.vars.map (·.1)).Nodup := by
  refine ⟨length_lines ha, fun e => parse_append_of_error b ha, ?_, fun _ _ => parse_eq_ok_iff.mp⟩
  intro first hfirst
  exact ⟨fun file => parse_append_eq_ok_iff b ha hfirst,
    fun e => parse_append_eq_error_iff b ha hfirst⟩

/-- A variable of the first text is repeated in the second, behind a blank line. -/
theorem parse_append_repeated : IsEnded "A=1\n".toList ∧ parse "A=1\n" = .ok ⟨[("A", "1")]⟩ ∧
    parse ("A=1\n" ++ "B=2\r\n\nA=3") = .error ⟨4, .repeated "A"⟩ := by
  have hended : IsEnded "A=1\n".toList := by simp [IsEnded]
  have hfirst : parse "A=1\n" = .ok ⟨[("A", "1")]⟩ := by decide +kernel
  have hlength : (lines "A=1\n".toList).length = 1 := by decide +kernel
  have hbad : FirstFault (BadLine ["A"] 1) (lines "B=2\r\n\nA=3".toList) ⟨4, .repeated "A"⟩ :=
    assignments_eq_error_iff.mp (by decide +kernel)
  obtain ⟨-, -, hsecond, -⟩ := parse_append "B=2\r\n\nA=3" hended
  rw [hlength] at hsecond
  exact ⟨hended, hfirst, ((hsecond _ hfirst).2 _).mpr hbad⟩

end EnvFile

end WorkerGen
