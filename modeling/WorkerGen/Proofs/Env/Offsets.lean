import Mathlib
import WorkerGen.Env

/-!
# Environment files by byte offsets

A line can also be taken apart at byte offsets: a search tells at which offset it has found
something, and a cut fails at an offset behind the end of the text or inside a character.  Read in
this way, a file comes to the same as when its characters are taken one by one, and no cut fails,
whatever the text is (`parseByOffsets_eq`).

Every offset is where a search has stopped, or behind a character of one byte that stands there.  So
it is always the length of a part that the text begins with, and a text can be cut behind such a
part (`cut?_append`).  For each function of the reader there is one that cuts, with the same name
and `ByOffsets` behind it, and one lemma that says that the two agree.
-/

namespace WorkerGen

/-! ## Cuts

A text is a list of characters here and a cut counts their bytes, of which a character has one to
four. -/

namespace Text

/-- A text cut at a byte offset, which is to be where a character begins or the text ends. -/
def cut? : (s : List Char) → (offset : Nat) → Option (List Char × List Char)
  | s, 0 => some ([], s)
  | [], _ + 1 => none
  | c :: rest, n + 1 =>
    if c.utf8Size ≤ n + 1 then
      (cut? rest (n + 1 - c.utf8Size)).map fun parts => (c :: parts.1, parts.2)
    else none

/-- What stands before an offset. -/
def cutTo? (s : List Char) (offset : Nat) : Option (List Char) := (cut? s offset).map (·.1)

/-- What stands behind an offset. -/
def cutFrom? (s : List Char) (offset : Nat) : Option (List Char) := (cut? s offset).map (·.2)

/-- What stands between two offsets, of which the first is not the larger one. -/
def cutBetween? (s : List Char) (start stop : Nat) : Option (List Char) := do
  cutFrom? (← cutTo? s stop) start

/-- The offset at which a text is first found in another. -/
def offsetOf? (sought : List Char) : List Char → Option Nat
  | [] => if sought.isEmpty then some 0 else none
  | c :: rest =>
    if sought.isPrefixOf (c :: rest) then some 0
    else (offsetOf? sought rest).map (c.utf8Size + ·)

lemma byteLength_cons (c : Char) (s : List Char) :
    byteLength (c :: s) = c.utf8Size + byteLength s := rfl

/-- A text can be cut behind any part that it begins with. -/
lemma cut?_append : ∀ before after : List Char,
    cut? (before ++ after) (byteLength before) = some (before, after)
  | [], s => by rw [List.nil_append, byteLength, List.foldr_nil, cut?]
  | c :: before, after => by
      obtain ⟨n, hn⟩ := Nat.exists_eq_add_one.mpr c.utf8Size_pos
      have hsize : byteLength (c :: before) = n + byteLength before + 1 := by
        rw [byteLength_cons, hn]; omega
      rw [List.cons_append, hsize, cut?, if_pos (by omega)]
      have hrest : n + byteLength before + 1 - c.utf8Size = byteLength before := by omega
      rw [hrest, cut?_append before after, Option.map_some]

/-- **A cut is at the border of a character**, or it fails. -/
theorem cut?_eq_some_iff : ∀ {s : List Char} {offset : Nat} {before after : List Char},
    cut? s offset = some (before, after) ↔ s = before ++ after ∧ offset = byteLength before := by
  refine fun {s offset before after} => ⟨fun h => ?_, fun ⟨hs, hoffset⟩ => ?_⟩
  · induction s, offset using cut?.induct generalizing before after with
    | case1 s =>
        obtain ⟨rfl, rfl⟩ := Prod.mk.inj (Option.some.inj (cut?.eq_1 s ▸ h))
        exact ⟨rfl, rfl⟩
    | case2 n => simp [cut?] at h
    | case3 c rest n hfits ih =>
        rw [cut?, if_pos hfits] at h
        obtain ⟨⟨before', after'⟩, hcut, heq⟩ := Option.map_eq_some_iff.mp h
        obtain ⟨rfl, rfl⟩ := Prod.mk.inj heq
        obtain ⟨rfl, hoffset⟩ := ih hcut
        have hsize : byteLength (c :: before') = c.utf8Size + byteLength before' := rfl
        exact ⟨rfl, by dsimp only; omega⟩
    | case4 c rest n hlarge => simp [cut?, hlarge] at h
  · rw [hs, hoffset, cut?_append]

lemma cutTo?_append (before after : List Char) :
    cutTo? (before ++ after) (byteLength before) = some before := by
  rw [cutTo?, cut?_append, Option.map_some]

lemma cutFrom?_append (before after : List Char) :
    cutFrom? (before ++ after) (byteLength before) = some after := by
  rw [cutFrom?, cut?_append, Option.map_some]

lemma cutFrom?_cons {c : Char} (h : c.utf8Size = 1) (s : List Char) :
    cutFrom? (c :: s) 1 = some s := by
  have hcut := cutFrom?_append [c] s
  rwa [byteLength_cons, h] at hcut

/-- Behind what a search has found, if that takes one byte. -/
lemma cutFrom?_append_cons (before after : List Char) {c : Char} (h : c.utf8Size = 1) :
    cutFrom? (before ++ c :: after) (byteLength before + 1) = some after := by
  have hsize : byteLength (before ++ [c]) = byteLength before + 1 := by
    induction before with
    | nil => rw [List.nil_append, byteLength_cons, h]; rfl
    | cons d before ih => rw [List.cons_append, byteLength_cons, byteLength_cons, ih]; omega
  rw [← List.singleton_append, ← List.append_assoc, ← hsize, cutFrom?_append]

end Text

open Text

namespace EnvFile

/-! ## Assignments

A line is an assignment with or without `export` in front, and both are read by one function from
there on. -/

/-- The assignment in a text, which may have stood behind `export`. -/
def assigned (exported : Bool) (s : List Char) : Except EnvFault (String × String) :=
  match splitAt? '=' s with
  | none => .error (if exported then .nothingExported else .noEquals)
  | some (name, rest) =>
    if isName (trimEnd name) then
      (value rest).map fun value => (String.ofList (trimEnd name), String.ofList value)
    else .error (.invalidName (String.ofList (trimEnd name)))

lemma assignment_exported {s rest : List Char} (h : dropStart? "export ".toList s = some rest) :
    assignment s = assigned true (trimStart rest) := by
  rw [assignment, h]
  rfl

lemma assignment_plain {s : List Char} (h : dropStart? "export ".toList s = none) :
    assignment s = assigned false s := by
  rw [assignment, h]
  rfl

/-! ## Searches

A search answers the number of bytes in front of what it has found. -/

/-- A search for one character finds where a text is split. -/
lemma offsetOf?_of_splitAt? (c : Char) : ∀ s : List Char,
    (splitAt? c s = none ∧ offsetOf? [c] s = none) ∨
      ∃ before after, s = before ++ c :: after ∧ splitAt? c s = some (before, after) ∧
        offsetOf? [c] s = some (byteLength before)
  | [] => .inl ⟨rfl, rfl⟩
  | d :: rest => by
      by_cases h : d = c
      · subst h
        exact .inr ⟨[], rest, rfl, by rw [splitAt?, if_pos rfl], by simp [offsetOf?, byteLength]⟩
      · have hmiss : [c].isPrefixOf (d :: rest) = false := by
          simp [List.isPrefixOf_cons_cons, Ne.symm h]
        rw [splitAt?, if_neg h, offsetOf?, hmiss, if_neg Bool.false_ne_true]
        obtain ⟨hsplit, hoffset⟩ | ⟨before, after, hrest, hsplit, hoffset⟩ :=
          offsetOf?_of_splitAt? c rest
        · exact .inl ⟨by rw [hsplit, Option.map_none], by rw [hoffset, Option.map_none]⟩
        · refine .inr ⟨d :: before, after, by rw [hrest, List.cons_append], ?_, ?_⟩
          · rw [hsplit, Option.map_some]
          · rw [hoffset, Option.map_some, byteLength_cons]

/-- A search for a comment finds where an unquoted value ends. -/
lemma offsetOf?_comment : ∀ s : List Char,
    (offsetOf? [' ', '#'] s = none ∧ beforeComment s = s) ∨
      ∃ after, s = beforeComment s ++ after ∧
        offsetOf? [' ', '#'] s = some (byteLength (beforeComment s))
  | [] => .inl ⟨rfl, rfl⟩
  | [c] => .inl ⟨by simp [offsetOf?], rfl⟩
  | c :: d :: rest => by
      by_cases h : c = ' ' ∧ d = '#'
      · obtain ⟨rfl, rfl⟩ := h
        exact .inr ⟨' ' :: '#' :: rest, rfl, rfl⟩
      · have hcut : (c = ' ' && d = '#') = false := by simpa using h
        have hne : ¬(' ' = c ∧ '#' = d) := fun ⟨hc, hd⟩ => h ⟨hc.symm, hd.symm⟩
        have hmiss : [' ', '#'].isPrefixOf (c :: d :: rest) = false := by
          simpa [List.isPrefixOf_cons_cons] using hne
        rw [beforeComment, hcut, if_neg Bool.false_ne_true, offsetOf?, hmiss,
          if_neg Bool.false_ne_true]
        obtain ⟨hoffset, hvalue⟩ | ⟨after, hrest, hoffset⟩ := offsetOf?_comment (d :: rest)
        · exact .inl ⟨by rw [hoffset, Option.map_none], by rw [hvalue]⟩
        · refine .inr ⟨after, by rw [List.cons_append, ← hrest], ?_⟩
          rw [hoffset, Option.map_some, byteLength_cons]

/-! ## Lines taken apart at offsets

These functions follow those that go by characters, with an offset and a cut where those split a
list. -/

/-- The value in quotes that a text begins with. -/
def quotedByOffsets (quote : Char) (raw : List Char) : Option (Except EnvFault (List Char)) := do
  match offsetOf? [quote] (← cutFrom? raw 1) with
  | none => return .error .unterminated
  | some last =>
    let rest := trimStart (← cutFrom? raw (last + 2))
    if rest.isEmpty || rest.head? == some '#' then
      let inner ← cutBetween? raw 1 (last + 1)
      return .ok (if quote = '"' then withBreaks inner else inner)
    else return .error .textAfterQuote

/-- The value that a text stands for which does not begin with a quote. -/
def unquotedByOffsets (raw : List Char) : Option (List Char) :=
  match offsetOf? [' ', '#'] raw with
  | some comment => (cutTo? raw comment).map trimEnd
  | none => some (trimEnd raw)

/-- The value that a text behind `=` stands for. -/
def valueByOffsets (s : List Char) : Option (Except EnvFault (List Char)) :=
  let raw := trimStart s
  if raw.head? = some '"' then quotedByOffsets '"' raw
  else if raw.head? = some '\x27' then quotedByOffsets '\x27' raw
  else (unquotedByOffsets raw).map .ok

/-- The assignment in a text, which may have stood behind `export`. -/
def assignedByOffsets (exported : Bool) (s : List Char) :
    Option (Except EnvFault (String × String)) := do
  match offsetOf? ['='] s with
  | none => return .error (if exported then .nothingExported else .noEquals)
  | some equals =>
    let name := trimEnd (← cutTo? s equals)
    if isName name then
      let value ← valueByOffsets (← cutFrom? s (equals + 1))
      return value.map fun value => (String.ofList name, String.ofList value)
    else return .error (.invalidName (String.ofList name))

/-- The assignment in a line without white space around it. -/
def assignmentByOffsets (s : List Char) : Option (Except EnvFault (String × String)) :=
  match dropStart? "export ".toList s with
  | some rest => assignedByOffsets true (trimStart rest)
  | none => assignedByOffsets false s

/-- The assignment in a line; blank lines and comments have none. -/
def lineByOffsets (s : List Char) : Option (Except EnvFault (Option (String × String))) :=
  let s := trim s
  if s.isEmpty || s.head? == some '#' then some (.ok none)
  else (assignmentByOffsets s).map (·.map some)

/-- The assignments of numbered lines, given the names that are already set. -/
def assignmentsByOffsets (names : List String) :
    (number : Nat) → List (List Char) → Option (Except EnvError (List (String × String)))
  | _, [] => some (.ok [])
  | number, s :: rest => do
    match ← lineByOffsets s with
    | .error fault => return .error ⟨number, fault⟩
    | .ok none => assignmentsByOffsets names (number + 1) rest
    | .ok (some (name, value)) =>
      if names.contains name then return .error ⟨number, .repeated name⟩
      else
        let found ← assignmentsByOffsets (name :: names) (number + 1) rest
        return found.map ((name, value) :: ·)

/-- Reads an environment file; there is no result where a cut fails. -/
def parseByOffsets (text : String) : Option (Except EnvError EnvFile) :=
  (assignmentsByOffsets [] 1 (lines text.toList)).map (·.map EnvFile.mk)

/-! ## No cut fails

The lemmas are in the order of the functions, from a value in quotes to a whole file. -/

lemma quotedByOffsets_eq {quote : Char} (hquote : quote.utf8Size = 1) (s : List Char) :
    quotedByOffsets quote (quote :: s) = some (quotedValue quote s) := by
  rw [quotedByOffsets, quotedValue, cutFrom?_cons hquote]
  obtain ⟨hsplit, hoffset⟩ | ⟨inner, rest, rfl, hsplit, hoffset⟩ := offsetOf?_of_splitAt? quote s
  · simp [hsplit, hoffset]
  · have hsize : byteLength (quote :: inner) = byteLength inner + 1 := by
      rw [byteLength_cons, hquote, Nat.add_comm]
    have hrest : cutFrom? (quote :: (inner ++ quote :: rest)) (byteLength inner + 2)
        = some rest := by
      have hcut := cutFrom?_append_cons (quote :: inner) rest hquote
      rwa [hsize] at hcut
    have hinner : cutBetween? (quote :: (inner ++ quote :: rest)) 1 (byteLength inner + 1)
        = some inner := by
      rw [cutBetween?, ← List.cons_append, ← hsize, cutTo?_append]
      exact cutFrom?_cons hquote inner
    simp only [hsplit, hoffset, hrest, hinner, Option.bind_eq_bind, Option.bind_some]
    cases trimStart rest with
    | nil => rfl
    | cons c t =>
        by_cases hc : c = '#'
        · subst hc
          rfl
        · simp [hc]

lemma unquotedByOffsets_eq (s : List Char) :
    unquotedByOffsets s = some (trimEnd (beforeComment s)) := by
  rw [unquotedByOffsets]
  obtain ⟨hoffset, hvalue⟩ | ⟨after, hs, hoffset⟩ := offsetOf?_comment s
  · rw [hoffset, hvalue]
  · have hcut := cutTo?_append (beforeComment s) after
    rw [← hs] at hcut
    simp only [hoffset, hcut, Option.map_some]

lemma valueByOffsets_eq (s : List Char) : valueByOffsets s = some (value s) := by
  rw [valueByOffsets, value]
  cases trimStart s with
  | nil => rfl
  | cons c rest =>
      simp only [List.head?_cons, Option.some.injEq]
      by_cases hdouble : c = '"'
      · subst hdouble
        exact quotedByOffsets_eq (by decide) rest
      by_cases hsingle : c = '\x27'
      · subst hsingle
        exact quotedByOffsets_eq (by decide) rest
      · simp only [hdouble, hsingle, if_false, decide_false, Bool.or_self, unquotedByOffsets_eq]
        rfl

lemma assignedByOffsets_eq (exported : Bool) (s : List Char) :
    assignedByOffsets exported s = some (assigned exported s) := by
  rw [assignedByOffsets, assigned]
  obtain ⟨hsplit, hoffset⟩ | ⟨name, rest, rfl, hsplit, hoffset⟩ := offsetOf?_of_splitAt? '=' s
  · rw [hsplit, hoffset]
    rfl
  · have hname := cutTo?_append name ('=' :: rest)
    have hrest := cutFrom?_append_cons name rest (show '='.utf8Size = 1 by decide)
    simp only [hsplit, hoffset, hname, hrest, Option.bind_eq_bind, Option.bind_some,
      valueByOffsets_eq]
    split_ifs <;> rfl

lemma assignmentByOffsets_eq (s : List Char) : assignmentByOffsets s = some (assignment s) := by
  rw [assignmentByOffsets]
  cases h : dropStart? "export ".toList s with
  | none => rw [assignment_plain h, ← assignedByOffsets_eq]
  | some rest => rw [assignment_exported h, ← assignedByOffsets_eq]

lemma lineByOffsets_eq (s : List Char) : lineByOffsets s = some (line? s) := by
  rw [lineByOffsets, line?]
  cases trim s with
  | nil => rfl
  | cons c t =>
      by_cases hc : c = '#'
      · subst hc
        rfl
      · simp [hc, assignmentByOffsets_eq]

lemma assignmentsByOffsets_eq : ∀ (s : List (List Char)) (names : List String) (number : Nat),
    assignmentsByOffsets names number s = some (assignments names number s)
  | [], _, _ => rfl
  | s :: rest, names, number => by
      rw [assignmentsByOffsets, assignments, lineByOffsets_eq]
      rcases line? s with fault | (_ | ⟨name, value⟩)
      · rfl
      · exact assignmentsByOffsets_eq rest names (number + 1)
      · dsimp only [Option.bind_eq_bind, Option.bind_some]
        rw [assignmentsByOffsets_eq rest (name :: names) (number + 1)]
        split_ifs <;> rfl

/-- **No cut fails**, whatever the text is, and what is read is the same. -/
theorem parseByOffsets_eq (text : String) : parseByOffsets text = some (parse text) := by
  rw [parseByOffsets, assignmentsByOffsets_eq, Option.map_some, parse]

end EnvFile

end WorkerGen
