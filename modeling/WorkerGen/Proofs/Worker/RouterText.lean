import Mathlib
import WorkerGen.Proofs.Identifier
import WorkerGen.Proofs.Text
import WorkerGen.Proofs.Worker.Lines
import WorkerGen.Worker.Router

/-!
# The text of a router

A router is read line by line: `imports` finds the handlers that it imports, each with its name and
the module that its string literal stands for, and `fields` finds the values of a field of the
routing table.  They find exactly what was written (`imports_router`, `fields_router`), and no line
of the rest looks like an import or a field.

The names of the imports differ because the place of a route can be read off its name, whatever the
id is made into (`importName_eq_iff`).

A reader that looks for a line must not find another one.  Every line of the table begins with a
lead by which it can be told from all others (`RouteField.lead`), and that a line does not begin
with the lead of a field is decided on its first characters.  The texts of the description stand
behind that, so they cannot pass for the beginning of a line.
-/

namespace WorkerGen.Worker

open Text LineRule

/-! ## Reading a router

These readers know nothing of how a router is written but the texts that lines begin with. -/

/-- The name and the module of a line that imports a handler. -/
def readImport? (line : String) : Option (String × String) :=
  (dropStart? "import \x7b handle as ".toList line.toList).bind fun rest =>
    (dropStart? " \x7d from ".toList (rest.dropWhile isIdentifierChar)).bind fun tail =>
      match Json.readLiteral? tail with
      | some (module, [';']) => some (String.ofList (rest.takeWhile isIdentifierChar), module)
      | _ => none

/-- The imports of handlers in a router. -/
def imports (text : String) : List (String × String) :=
  (LineRule.lineFeed.lines text).filterMap readImport?

/-- A field of the routing table. -/
inductive RouteField where
  | method
  | path
  | handler
deriving DecidableEq, Inhabited, Repr

namespace RouteField

/-- What stands before the value of a field. -/
def start : RouteField → String
  | .method => "    method: "
  | .path => "    path: "
  | .handler => "    handler: "

/-- The value of a field of a route. -/
def value (index : ℕ) (route : Route) : RouteField → String
  | .method => quote route.method.upperName
  | .path => quote route.path
  | .handler => handlerWord index route

/-- The value of a field on a line. -/
def read? (field : RouteField) (line : String) : Option String :=
  (dropStart? field.start.toList line.toList).bind fun rest =>
    if rest.getLast? = some ',' then some (String.ofList rest.dropLast) else none

end RouteField

/-- The values of a field in a router. -/
def fields (field : RouteField) (text : String) : List String :=
  (LineRule.lineFeed.lines text).filterMap field.read?

/-! ## Names of imports

An identifier is made of an arbitrary text character by character, and its length is known from the
text.  The name of an import is a word, the digits of a place, a `_` and such an identifier. -/

lemma toList_importName (index : ℕ) (id : String) : (importName index id).toList
    = "handle_".toList ++ decimalDigits index ++ '_' :: (identifier id).toList := by
  unfold importName
  simp [Nat.toString_eq_repr, Nat.toList_repr, decimalDigits]

lemma isIdentifierChar_of_mem_importName {index : ℕ} {id : String} {c : Char}
    (h : c ∈ (importName index id).toList) : isIdentifierChar c = true := by
  have hfixed : ("handle_".toList.all isIdentifierChar) = true := by
    simp [isIdentifierChar, isAlphanumeric, isDigit, isLetter]
  rw [toList_importName, List.mem_append, List.mem_append, List.mem_cons] at h
  rcases h with (h | h) | rfl | h
  · exact List.all_eq_true.mp hfixed c h
  · exact isIdentifierChar_of_isDigit (isDigit_of_mem_decimalDigits h)
  · decide
  · exact isIdentifierChar_of_mem_identifier h

lemma isIdentifier_importName (index : ℕ) (id : String) : IsIdentifier (importName index id) := by
  have hhandle : "handle_".toList = 'h' :: "andle_".toList := by simp
  have htext := toList_importName index id
  rw [hhandle, List.cons_append, List.cons_append] at htext
  refine ⟨'h', _, htext, by decide, fun d hd => ?_⟩
  rw [← htext] at hd
  exact isIdentifierChar_of_mem_importName hd

/-- The digits of the place end at a `_`, so the name of an import gives the place of its route in
the table and what the id is made into. -/
lemma importName_eq_iff {i j : ℕ} {s t : String} :
    importName i s = importName j t ↔ i = j ∧ identifier s = identifier t := by
  have hdigits : ∀ n, '_' ∉ decimalDigits n := fun n hmem =>
    absurd (isDigit_of_mem_decimalDigits hmem) (by decide)
  constructor
  · intro h
    have htext := congrArg String.toList h
    rw [toList_importName, toList_importName, List.append_assoc, List.append_assoc,
      List.append_cancel_left_eq] at htext
    obtain ⟨hplace, hid⟩ := append_cons_inj_first (hdigits i) (hdigits j) htext
    exact ⟨decimalDigits_injective hplace, String.toList_inj.mp hid⟩
  · rintro ⟨rfl, h⟩
    rw [importName, importName, h]

example : importName 1 "1a" = "handle_1__1a" ∧ importName 11 "a" = "handle_11_a" := by
  decide +kernel

/-- **Identifiers from arbitrary texts, and the names of imports.**  Every text is made into an
identifier, and stays as it is exactly if it is one, so that doing it again changes nothing.  The
identifier is as long as the text, but for one character more where the text is empty or starts with
a digit.  The names of two imports are the same exactly if their places are and their ids are made
into the same identifier. -/
theorem identifiers_and_import_names :
    (∀ s, (identifier s).toList ∈ identifierPattern.matches') ∧
    (∀ s, identifier s = s ↔ s.toList ∈ identifierPattern.matches') ∧
    (∀ s, identifier (identifier s) = identifier s) ∧
    (∀ s, (identifier s).length
      = s.length + if s = "" ∨ s.toList.head?.any isDigit = true then 1 else 0) ∧
    ∀ i j s t, importName i s = importName j t ↔ i = j ∧ identifier s = identifier t := by
  refine ⟨fun s => ?_, fun s => ?_, identifier_identifier, length_identifier,
    fun _ _ _ _ => importName_eq_iff⟩
  · rw [mem_matches_identifierPattern]
    exact isIdentifier_identifier s
  · rw [mem_matches_identifierPattern]
    exact identifier_eq_self_iff

/-! ## Lines of imports

A line that imports a handler has a fixed beginning, the name, a fixed middle and a literal. -/

/-- The line that imports a handler under a name. -/
def importLine (name module : String) : String :=
  "import \x7b handle as " ++ name ++ " \x7d from " ++ quote module ++ ";"

lemma readImport?_importLine (index : ℕ) (id module : String) :
    readImport? (importLine (importName index id) module) = some (importName index id, module) := by
  have hname : ∀ c ∈ (importName index id).toList, isIdentifierChar c = true := fun c hc =>
    isIdentifierChar_of_mem_importName hc
  have hends : ∀ u : List Char, Ends isIdentifierChar (" \x7d from ".toList ++ u) := fun u =>
    Ends.cons (by decide) _
  have hline : (importLine (importName index id) module).toList
      = "import \x7b handle as ".toList ++ ((importName index id).toList ++
        (" \x7d from ".toList ++ (Json.literal module ++ [';']))) := by
    unfold importLine
    simp [toList_quote]
  rw [readImport?, hline, dropStart?_append, Option.bind_some,
    dropWhile_append_of_ends hname (hends _), dropStart?_append, Option.bind_some,
    Json.readLiteral?_literal, takeWhile_append_of_ends hname (hends _)]
  simp

/-- A line that starts otherwise imports no handler. -/
lemma readImport?_of_dropStart? {line : String}
    (h : dropStart? "import \x7b handle as ".toList line.toList = none) :
    readImport? line = none := by
  rw [readImport?, h, Option.bind_none]

lemma readImport?_eq_none {line : String} (h : line.toList.head? ≠ some 'i') :
    readImport? line = none := by
  have hstart : "import \x7b handle as ".toList.head? = some 'i' := by simp
  refine readImport?_of_dropStart? ?_
  cases hdrop : dropStart? "import \x7b handle as ".toList line.toList with
  | none => rfl
  | some rest =>
      rw [eq_append_of_dropStart? hdrop, List.head?_append, hstart] at h
      exact absurd rfl h

lemma readImport?_ofList {s : List Char} (h : s.head? ≠ some 'i') :
    readImport? (String.ofList s) = none :=
  readImport?_eq_none (by rwa [String.toList_ofList])

/-! ## Lines of the table

A field is on its own line and on no other: not on that of another field, of the segments, of an
import, or of the fixed text around the table. -/

lemma read?_start (field : RouteField) (value : String) :
    field.read? (field.start ++ (value ++ ",")) = some value := by
  rw [RouteField.read?, String.toList_append, String.toList_append, dropStart?_append]
  simp

/-- By what a line of a field can be told from all others. -/
def RouteField.lead : RouteField → List Char
  | .method => [' ', ' ', ' ', ' ', 'm']
  | .path => [' ', ' ', ' ', ' ', 'p']
  | .handler => [' ', ' ', ' ', ' ', 'h']

lemma start_eq (field : RouteField) :
    field.start.toList = field.lead ++ field.start.toList.drop 5 := by
  cases field <;> simp [RouteField.start, RouteField.lead]

/-- A line that starts otherwise does not hold a field. -/
lemma read?_eq_none {field : RouteField} {line : String} (h : line.toList.take 5 ≠ field.lead) :
    field.read? line = none := by
  have hlength : field.lead.length = 5 := by cases field <;> rfl
  rw [RouteField.read?]
  cases hdrop : dropStart? field.start.toList line.toList with
  | none => rfl
  | some rest =>
      rw [eq_append_of_dropStart? hdrop, start_eq, List.append_assoc, List.take_left' hlength] at h
      exact absurd rfl h

lemma read?_ofList {field : RouteField} {s : List Char} (h : s.take 5 ≠ field.lead) :
    field.read? (String.ofList s) = none :=
  read?_eq_none (by rwa [String.toList_ofList])

/-- A field is not on the line of another one. -/
lemma read?_other {field other : RouteField} (h : field ≠ other) (rest : String) :
    field.read? (other.start ++ rest) = none := by
  have hlength : other.lead.length = 5 := by cases other <;> rfl
  have hlead : other.lead ≠ field.lead := by
    cases field <;> cases other <;> first | exact absurd rfl h | decide
  refine read?_eq_none ?_
  rwa [String.toList_append, start_eq, List.append_assoc, List.take_left' hlength]

/-- A field is not on the line of the segments. -/
lemma read?_segments (field : RouteField) (rest : String) :
    field.read? ("    segments: " ++ rest) = none := by
  have hstart : "    segments: ".toList = [' ', ' ', ' ', ' ', 's'] ++ "egments: ".toList := by
    simp
  have htake : ∀ s : List Char,
      ([' ', ' ', ' ', ' ', 's'] ++ s).take 5 = [' ', ' ', ' ', ' ', 's'] :=
    fun _ => rfl
  refine read?_eq_none ?_
  rw [String.toList_append, hstart, List.append_assoc, htake]
  cases field <;> decide

/-- A line that imports a handler has no field. -/
lemma read?_importLine (field : RouteField) (name module : String) :
    field.read? (importLine name module) = none := by
  have hstart : "import \x7b handle as ".toList
      = ['i', 'm', 'p', 'o', 'r'] ++ "t \x7b handle as ".toList := by simp
  have htake : ∀ s : List Char,
      (['i', 'm', 'p', 'o', 'r'] ++ s).take 5 = ['i', 'm', 'p', 'o', 'r'] :=
    fun _ => rfl
  refine read?_eq_none ?_
  unfold importLine
  simp only [String.toList_append, List.append_assoc, hstart, htake]
  cases field <;> decide

lemma routeLines_eq (index : ℕ) (route : Route) : routeLines index route =
    ["  \x7b", RouteField.method.start ++ (RouteField.method.value index route ++ ","),
      RouteField.path.start ++ (RouteField.path.value index route ++ ","),
      "    segments: " ++ (route.segmentsJson.encode ++ ","),
      RouteField.handler.start ++ (RouteField.handler.value index route ++ ","), "  \x7d,"] := by
  simp only [← String.append_assoc]
  rfl

/-- The lines of a route hold each field once. -/
lemma filterMap_read?_routeLines (field : RouteField) (index : ℕ) (route : Route) :
    (routeLines index route).filterMap field.read? = [field.value index route] := by
  have hopen : field.read? "  \x7b" = none := read?_ofList (by cases field <;> decide)
  have hclose : field.read? "  \x7d," = none := read?_ofList (by cases field <;> decide)
  have hread : ∀ other : RouteField, field.read? (other.start ++ (other.value index route ++ ","))
      = if field = other then some (field.value index route) else none := by
    intro other
    split_ifs with h
    · rw [← h, read?_start]
    · exact read?_other h _
  rw [routeLines_eq]
  simp only [List.filterMap_cons, List.filterMap_nil, hopen, hclose, hread, read?_segments]
  cases field <;> rfl

/-- The lines of a route import nothing. -/
lemma filterMap_readImport?_routeLines (index : ℕ) (route : Route) :
    (routeLines index route).filterMap readImport? = [] := by
  have hfield : ∀ (field : RouteField) (rest : String),
      readImport? (field.start ++ rest) = none := by
    intro field rest
    refine readImport?_eq_none ?_
    rw [String.toList_append, start_eq]
    cases field <;> simp [RouteField.lead]
  have hsegments : ∀ rest : String, readImport? ("    segments: " ++ rest) = none := by
    intro rest
    refine readImport?_eq_none ?_
    simp
  have hopen : readImport? "  \x7b" = none := readImport?_ofList (by decide)
  have hclose : readImport? "  \x7d," = none := readImport?_ofList (by decide)
  rw [routeLines_eq]
  simp only [List.filterMap_cons, List.filterMap_nil, hopen, hclose, hfield, hsegments]

/-! ## Routers

The lines of a router are those of its head, of the imports, of the table and of what is between and
behind them.  The fixed lines are checked once, and the others have been dealt with. -/

/-- The import of a route that has a handler. -/
def importOf? (index : ℕ) (route : Route) : Option (String × String) :=
  (handlerOf? route).map fun id => (importName index id, modulePath id)

lemma importLine?_eq (index : ℕ) (route : Route) :
    importLine? index route = (importOf? index route).map fun e => importLine e.1 e.2 := by
  unfold importLine? importOf? importLine
  rw [Option.map_map]
  rfl

lemma map_mapIdx {α β γ : Type} (f : ℕ → α → β) (g : β → γ) (s : List α) :
    (s.mapIdx f).map g = s.mapIdx fun index a => g (f index a) := by
  simp [List.mapIdx_eq_zipIdx_map]

/-- The lines of the imports of handlers. -/
lemma filterMap_importLine? (routes : List Route) :
    (routes.mapIdx importLine?).filterMap id
      = ((routes.mapIdx importOf?).filterMap id).map fun e => importLine e.1 e.2 := by
  have hlines : routes.mapIdx importLine?
      = (routes.mapIdx importOf?).map (Option.map fun e => importLine e.1 e.2) := by
    rw [map_mapIdx]
    exact congrArg (List.mapIdx · routes) (funext fun index => funext (importLine?_eq index))
  rw [hlines, List.filterMap_map, List.map_filterMap]
  rfl

lemma exists_of_mem_imports {routes : List Route} {e : String × String}
    (h : e ∈ (routes.mapIdx importOf?).filterMap id) :
    ∃ index id, e = (importName index id, modulePath id) := by
  obtain ⟨o, ho, he⟩ := List.mem_filterMap.mp h
  obtain ⟨index, hindex, rfl⟩ := List.mem_mapIdx.mp ho
  obtain ⟨id, -, rfl⟩ := Option.map_eq_some_iff.mp he
  exact ⟨index, id, rfl⟩

lemma within_importName (index : ℕ) (id : String) :
    LineRule.lineFeed.Within (importName index id) := by
  intro c hc
  have hname := isIdentifierChar_of_mem_importName hc
  have hne : c ≠ '\n' := by rintro rfl; revert hname; decide
  simpa [ends] using hne

lemma within_importLine (index : ℕ) (id module : String) :
    LineRule.lineFeed.Within (importLine (importName index id) module) := by
  have hfixed : ∀ text ∈ ["import \x7b handle as ", " \x7d from ", ";"],
      LineRule.lineFeed.Within text := by
    repeat refine List.forall_mem_cons.mpr ⟨within_ofList (by decide), ?_⟩
    simp
  simp only [List.forall_mem_cons] at hfixed
  obtain ⟨himport, hfrom, hsemicolon, -⟩ := hfixed
  unfold importLine
  simp only [within_append]
  exact ⟨⟨⟨⟨himport, within_importName _ _⟩, hfrom⟩, within_quote _⟩, hsemicolon⟩

lemma within_value (field : RouteField) (index : ℕ) (route : Route) :
    LineRule.lineFeed.Within (field.value index route) := by
  cases field with
  | method => exact within_quote _
  | path => exact within_quote _
  | handler =>
      have hnull : LineRule.lineFeed.Within "null" := within_ofList (by decide)
      rw [RouteField.value, handlerWord]
      split
      · exact within_importName _ _
      · exact hnull

lemma within_routeLines (index : ℕ) (route : Route) :
    ∀ line ∈ routeLines index route, LineRule.lineFeed.Within line := by
  have hstart : ∀ field : RouteField, LineRule.lineFeed.Within field.start := by
    intro field
    cases field <;> exact within_ofList (by decide)
  have hfixed : ∀ text ∈ ["  \x7b", "    segments: ", ",", "  \x7d,"],
      LineRule.lineFeed.Within text := by
    repeat refine List.forall_mem_cons.mpr ⟨within_ofList (by decide), ?_⟩
    simp
  simp only [List.forall_mem_cons] at hfixed
  obtain ⟨hopen, hsegments, hcomma, hclose, -⟩ := hfixed
  rw [routeLines_eq]
  simp only [List.forall_mem_cons, within_append]
  exact ⟨hopen, ⟨hstart _, within_value _ _ _, hcomma⟩, ⟨hstart _, within_value _ _ _, hcomma⟩,
    ⟨hsegments, within_encode _, hcomma⟩, ⟨hstart _, within_value _ _ _, hcomma⟩, hclose, by simp⟩

/-- The lines before the imports of handlers. -/
def routerHead : List String :=
  [banner,
    "// Routes are ordered most specific first; passthrough routes are forwarded unchanged.",
    "",
    "import \x7b json \x7d from './support.js';"]

/-- The lines between the imports and the table. -/
def routerMiddle : List String := ["", "const ROUTES = ["]

/-- The lines behind the table. -/
def routerEnd : List String := "];" :: routerBody

lemma routerLines_eq (routes : List Route) : routerLines routes =
    routerHead ++ ((routes.mapIdx importOf?).filterMap id).map (fun e => importLine e.1 e.2) ++
      routerMiddle ++ (routes.mapIdx routeLines).flatten ++ routerEnd := by
  simp only [routerLines, routerHead, routerMiddle, routerEnd, filterMap_importLine?,
    List.append_assoc, List.cons_append, List.nil_append]

/-- The lines of a router that are the same for all routers. -/
lemma within_fixedLines : ∀ line ∈ routerHead ++ routerMiddle ++ routerEnd,
    LineRule.lineFeed.Within line := by
  unfold routerHead routerMiddle routerEnd routerBody banner
  simp only [List.cons_append, List.nil_append]
  repeat refine List.forall_mem_cons.mpr ⟨within_ofList (by decide), ?_⟩
  simp

lemma readImport?_fixedLines : ∀ line ∈ routerHead ++ routerMiddle ++ routerEnd,
    readImport? line = none := by
  have hsupport : readImport? "import \x7b json \x7d from './support.js';" = none :=
    readImport?_of_dropStart? (by simp [dropStart?])
  unfold routerHead routerMiddle routerEnd routerBody banner
  simp only [List.cons_append, List.nil_append]
  iterate 3 refine List.forall_mem_cons.mpr ⟨readImport?_ofList (by decide), ?_⟩
  refine List.forall_mem_cons.mpr ⟨hsupport, ?_⟩
  repeat refine List.forall_mem_cons.mpr ⟨readImport?_ofList (by decide), ?_⟩
  simp

lemma read?_fixedLines (field : RouteField) : ∀ line ∈ routerHead ++ routerMiddle ++ routerEnd,
    field.read? line = none := by
  unfold routerHead routerMiddle routerEnd routerBody banner
  simp only [List.cons_append, List.nil_append]
  repeat refine List.forall_mem_cons.mpr ⟨read?_ofList (by cases field <;> decide), ?_⟩
  simp

/-- The lines of a router hold no line feed. -/
lemma within_routerLines (routes : List Route) :
    ∀ line ∈ routerLines routes, LineRule.lineFeed.Within line := by
  have hfixed := within_fixedLines
  simp only [List.forall_mem_append] at hfixed
  obtain ⟨⟨hhead, hmiddle⟩, hend⟩ := hfixed
  have himports : ∀ line ∈ ((routes.mapIdx importOf?).filterMap id).map
      (fun e => importLine e.1 e.2), LineRule.lineFeed.Within line := by
    intro line hline
    obtain ⟨e, he, rfl⟩ := List.mem_map.mp hline
    obtain ⟨index, id, rfl⟩ := exists_of_mem_imports he
    exact within_importLine index id _
  have htable : ∀ line ∈ (routes.mapIdx routeLines).flatten, LineRule.lineFeed.Within line := by
    intro line hline
    obtain ⟨lines, hlines, hline⟩ := List.mem_flatten.mp hline
    obtain ⟨index, hindex, rfl⟩ := List.mem_mapIdx.mp hlines
    exact within_routeLines index _ line hline
  rw [routerLines_eq]
  simp only [List.forall_mem_append]
  exact ⟨⟨⟨⟨hhead, himports⟩, hmiddle⟩, htable⟩, hend⟩

lemma lines_router (routes : List Route) :
    LineRule.lineFeed.lines (router routes) = routerLines routes :=
  lines_ofLines (within_routerLines routes)

/-- **The imports that are found in a router are those that were written.** -/
theorem imports_router (routes : List Route) :
    imports (router routes) = (routes.mapIdx importOf?).filterMap id := by
  have hfixed := readImport?_fixedLines
  simp only [List.forall_mem_append, ← List.filterMap_eq_nil_iff] at hfixed
  obtain ⟨⟨hhead, hmiddle⟩, hend⟩ := hfixed
  have htable : (routes.mapIdx routeLines).flatten.filterMap readImport? = [] := by
    rw [List.filterMap_flatten, map_mapIdx]
    simp only [filterMap_readImport?_routeLines]
    simp [List.mapIdx_eq_zipIdx_map]
  have himports : (((routes.mapIdx importOf?).filterMap id).map
      fun e => importLine e.1 e.2).filterMap readImport?
      = (routes.mapIdx importOf?).filterMap id := by
    rw [List.filterMap_map]
    refine (List.filterMap_congr fun e he => ?_).trans List.filterMap_some
    obtain ⟨index, id, rfl⟩ := exists_of_mem_imports he
    rw [Function.comp_apply, readImport?_importLine]
  rw [imports, lines_router, routerLines_eq]
  simp only [List.filterMap_append, hhead, hmiddle, hend, htable, himports, List.append_nil,
    List.nil_append]

/-- **The values of a field that are found in a router are those of its routes.** -/
theorem fields_router (field : RouteField) (routes : List Route) :
    fields field (router routes) = routes.mapIdx fun index route => field.value index route := by
  have hfixed := read?_fixedLines field
  simp only [List.forall_mem_append, ← List.filterMap_eq_nil_iff] at hfixed
  obtain ⟨⟨hhead, hmiddle⟩, hend⟩ := hfixed
  have htable : (routes.mapIdx routeLines).flatten.filterMap field.read?
      = routes.mapIdx fun index route => field.value index route := by
    rw [List.filterMap_flatten, map_mapIdx]
    simp only [filterMap_read?_routeLines]
    rw [← map_mapIdx (fun index route => field.value index route) fun v => [v], ← List.flatMap_def,
      List.flatMap_singleton']
  have himports : (((routes.mapIdx importOf?).filterMap id).map
      fun e => importLine e.1 e.2).filterMap field.read? = [] := by
    rw [List.filterMap_map, List.filterMap_eq_nil_iff]
    intro e _
    exact read?_importLine field e.1 e.2
  rw [fields, lines_router, routerLines_eq]
  simp only [List.filterMap_append, hhead, hmiddle, hend, htable, himports, List.append_nil,
    List.nil_append]

end WorkerGen.Worker
