import Mathlib
import WorkerGen.Proofs.Project.Launching
import WorkerGen.Proofs.Text
import WorkerGen.Proofs.Worker.Lines
import WorkerGen.Proofs.Worker.Rendering

/-!
# The tables of a worker

The file for a class of resources begins with a table of what the manifest declares for it.  A row
of the table is a line with the name of a binding as a literal, and with that of the database or
bucket behind it.  `readRow?` reads a row back; it finds the rows that were written
(`readRow?_rowLine`) and takes no other line of the files for one (`readRow?_fixedLines`).

`rows_decode` says that each file consists of a head and a tail that are the same for all manifests,
with one row for every declaration between them, and that the first row for a database names the one
that a script is executed against at a launch.

A manifest may leave out the name of a database or bucket.  The table then shows that of the
binding, and the commands of a launch are given a name by a rule of their own.  That the two are the
same is shown, not built in (`databaseLine_eq`, `bucketLine_eq`): the table takes its names from the
manifest as the file is written, and the commands take theirs from the declaration.
-/

namespace WorkerGen

namespace Worker

open LineRule Text

/-! ## Rows

A name is a JSON literal on its line, so that it may hold quotes and brackets and still ends where
the literal ends. -/

/-- A row of a table: the name of a binding, and that of what it stands for if the table has it. -/
abbrev Row := String × Option String

/-- The line of a row. -/
def rowLine : Row → String
  | (name, none) => "  " ++ quote name ++ ","
  | (name, some target) => "  " ++ quote name ++ ": " ++ quote target ++ ","

/-- Reads what follows the first literal of a row. -/
def readTarget? : List Char → Option (Option String)
  | [','] => some none
  | ':' :: ' ' :: rest =>
    (Json.readLiteral? rest).bind fun (target, rest) => if rest = [','] then some target else none
  | _ => none

/-- Reads a row: its literals, between the signs of a list or of an object. -/
def readRow? (line : String) : Option Row :=
  (dropStart? [' ', ' '] line.toList).bind fun rest =>
    (Json.readLiteral? rest).bind fun (name, rest) => (readTarget? rest).map fun target =>
      (name, target)

/-- The rows that are found in a text. -/
def rows (text : String) : List Row := (LineRule.lineFeed.lines text).filterMap readRow?

lemma readTarget?_literal (target : String) :
    readTarget? (':' :: ' ' :: (Json.literal target ++ [','])) = some (some target) := by
  rw [readTarget?.eq_def]
  simp only [Json.readLiteral?_literal]
  rfl

/-- **A row is read back**, whatever its names are. -/
theorem readRow?_rowLine (row : Row) : readRow? (rowLine row) = some row := by
  obtain ⟨name, target⟩ := row
  cases target with
  | none =>
      have hline : (rowLine (name, none)).toList = [' ', ' '] ++ (Json.literal name ++ [',']) := by
        simp [rowLine, toList_quote]
      rw [readRow?, hline, dropStart?_append, Option.bind_some, Json.readLiteral?_literal]
      rfl
  | some target =>
      have hline : (rowLine (name, some target)).toList = [' ', ' '] ++ (Json.literal name ++
          (':' :: ' ' :: (Json.literal target ++ [',']))) := by
        simp [rowLine, toList_quote]
      rw [readRow?, hline, dropStart?_append, Option.bind_some, Json.readLiteral?_literal,
        Option.bind_some]
      simp only [readTarget?_literal, Option.map_some]

/-- The name that a table shows for a database is the one under which commands address it. -/
lemma databaseLine_eq (d : D1Database) :
    databaseLine d = rowLine (d.binding, some d.targetName) := by
  obtain ⟨binding, name, id⟩ := d
  cases name <;> cases id <;> rfl

lemma bucketLine_eq (b : R2Bucket) : bucketLine b = rowLine (b.binding, some b.targetName) := by
  obtain ⟨binding, name⟩ := b
  cases name <;> rfl

lemma within_rowLine (row : Row) : LineRule.lineFeed.Within (rowLine row) := by
  have hsigns : LineRule.lineFeed.Within "  " ∧ LineRule.lineFeed.Within ": " ∧
      LineRule.lineFeed.Within "," :=
    ⟨within_ofList (by decide), within_ofList (by decide), within_ofList (by decide)⟩
  obtain ⟨hindent, hcolon, hcomma⟩ := hsigns
  obtain ⟨name, target⟩ := row
  cases target with
  | none => simp only [rowLine, within_append, hindent, hcomma, within_quote, and_self]
  | some target =>
      simp only [rowLine, within_append, hindent, hcolon, hcomma, within_quote, and_self]

/-- A line without a literal behind two blanks is no row. -/
lemma readRow?_eq_none {line : String} (h : line.toList.take 3 ≠ [' ', ' ', '"']) :
    readRow? line = none := by
  rw [readRow?]
  cases hdrop : dropStart? [' ', ' '] line.toList with
  | none => rfl
  | some rest =>
      rw [eq_append_of_dropStart? hdrop] at h
      cases rest with
      | nil => rfl
      | cons c rest =>
          have hquote : c ≠ '"' := by
            rintro rfl
            exact h rfl
          have hnone : Json.readLiteral? (c :: rest) = none := by
            rw [Json.readLiteral?]
            rintro rest' heq
            exact hquote (List.cons.inj heq).1
          rw [Option.bind_some, hnone, Option.bind_none]

lemma readRow?_ofList {s : List Char} (h : s.take 3 ≠ [' ', ' ', '"']) :
    readRow? (String.ofList s) = none :=
  readRow?_eq_none (by rwa [String.toList_ofList])

/-! ## Files

The lines around a table are fixed for each class.  None of them has a literal where a row has
one. -/

/-- The file with the table of a class. -/
def tableFile : Resource → GlobalFile
  | .d1 => .databases
  | .kv => .namespaces
  | .r2 => .buckets

/-- What a manifest declares for a class.  A database or bucket that is given no name has that of
its binding. -/
def declaredRows (m : Manifest) : Resource → List Row
  | .d1 => m.d1Databases.map fun d => (d.binding, some (d.databaseName.getD d.binding))
  | .kv => m.kvNamespaces.map fun n => (n.binding, none)
  | .r2 => m.r2Buckets.map fun b => (b.binding, some (b.bucketName.getD b.binding))

/-- The lines in front of a table. -/
def tableHead : Resource → List String
  | .d1 => databasesHead
  | .kv => namespacesHead
  | .r2 => bucketsHead

/-- The lines behind a table. -/
def tableTail : Resource → List String
  | .d1 => "\x7d);" :: databasesBody
  | .kv => "]);" :: namespacesBody
  | .r2 => "\x7d);" :: bucketsBody

/-- The lines of the file for a class. -/
def tableLines (m : Manifest) (resource : Resource) : List String :=
  tableHead resource ++ (declaredRows m resource).map rowLine ++ tableTail resource

lemma content_tableFile (config : Config) (routes : List Route) (resource : Resource) :
    (tableFile resource).content config routes = ofLines (tableLines config.bindings resource) := by
  cases resource with
  | d1 =>
      have hlines : config.bindings.d1Databases.map databaseLine
          = (declaredRows config.bindings .d1).map rowLine := by
        rw [declaredRows, List.map_map]
        exact List.map_congr_left fun d _ => databaseLine_eq d
      rw [tableFile, GlobalFile.content, databases, hlines, List.append_assoc]
      rfl
  | kv =>
      have hlines : config.bindings.kvNamespaces.map namespaceLine
          = (declaredRows config.bindings .kv).map rowLine := by
        rw [declaredRows, List.map_map]
        rfl
      rw [tableFile, GlobalFile.content, namespaces, hlines, List.append_assoc]
      rfl
  | r2 =>
      have hlines : config.bindings.r2Buckets.map bucketLine
          = (declaredRows config.bindings .r2).map rowLine := by
        rw [declaredRows, List.map_map]
        exact List.map_congr_left fun b _ => bucketLine_eq b
      rw [tableFile, GlobalFile.content, buckets, hlines, List.append_assoc]
      rfl

lemma within_fixedTableLines (resource : Resource) :
    ∀ line ∈ tableHead resource ++ tableTail resource, LineRule.lineFeed.Within line := by
  cases resource
  all_goals
    simp only [tableHead, tableTail, databasesHead, databasesBody, namespacesHead, namespacesBody,
      bucketsHead, bucketsBody, banner, List.cons_append, List.nil_append]
    repeat refine List.forall_mem_cons.mpr ⟨within_ofList (by decide), ?_⟩
    simp

/-- No line outside of a table is taken for a row. -/
lemma readRow?_fixedLines (resource : Resource) :
    ∀ line ∈ tableHead resource ++ tableTail resource, readRow? line = none := by
  cases resource
  all_goals
    simp only [tableHead, tableTail, databasesHead, databasesBody, namespacesHead, namespacesBody,
      bucketsHead, bucketsBody, banner, List.cons_append, List.nil_append]
    repeat refine List.forall_mem_cons.mpr ⟨readRow?_ofList (by decide), ?_⟩
    simp

lemma lines_tableFile (m : Manifest) (resource : Resource) :
    LineRule.lineFeed.lines (ofLines (tableLines m resource)) = tableLines m resource := by
  have hfixed := within_fixedTableLines resource
  rw [List.forall_mem_append] at hfixed
  refine lines_ofLines ?_
  rw [tableLines, List.forall_mem_append, List.forall_mem_append, List.forall_mem_map]
  exact ⟨⟨hfixed.1, fun row _ => within_rowLine row⟩, hfixed.2⟩

lemma map_readRow? (rs : List Row) : (rs.map rowLine).map readRow? = rs.map some := by
  rw [List.map_map]
  exact List.map_congr_left fun row _ => readRow?_rowLine row

/-- **The rows that are found in a file are those that the manifest declares.** -/
theorem rows_tableFile (m : Manifest) (resource : Resource) :
    rows (ofLines (tableLines m resource)) = declaredRows m resource := by
  have hfixed := readRow?_fixedLines resource
  rw [List.forall_mem_append] at hfixed
  obtain ⟨hhead, htail⟩ := hfixed
  rw [← List.filterMap_eq_nil_iff] at hhead htail
  have htable : ((declaredRows m resource).map rowLine).filterMap readRow? =
      declaredRows m resource := by
    rw [List.filterMap_map]
    exact (List.filterMap_congr fun row _ => readRow?_rowLine row).trans List.filterMap_some
  rw [rows, lines_tableFile, tableLines, List.filterMap_append, List.filterMap_append, hhead,
    htail, htable, List.nil_append, List.append_nil]

/-! ## What the tables hold

The commands of a launch are looked up in what a run without refusals calls, so that the name in the
table and the name on the command line come from two places. -/

open Launch in
/-- **The tables of a worker hold what the manifest declares.**  For each class there are a head and
a tail, the same for all manifests, and every worker has between them one row for each declaration,
in the order of the manifest; it is read back as the name of the binding and, for databases and
buckets, the name that is given or else that of the binding.  No other line is read as a row.  A
launch with a script executes it against the name in the first row for databases. -/
theorem rows_decode :
    (∀ resource, ∃ head tail, ∀ (config : Config) (routes : List Route), ∃ text table,
      renderGlobal (tableFile resource).name config routes = .ok text ∧
      text = ofLines (head ++ table ++ tail) ∧
      LineRule.lineFeed.lines text = head ++ table ++ tail ∧
      table.map readRow? = (declaredRows config.bindings resource).map some ∧
      rows text = declaredRows config.bindings resource) ∧
    (∀ m : Manifest, declaredRows m .d1 =
      m.d1Databases.map fun d => (d.binding, some d.targetName)) ∧
    ∀ (refuses : ℕ → Option IoFault) (config : Config) (options : LaunchOptions) (m : RunState)
      (script : Path) (database : D1Database),
      options.init = some script → config.bindings.d1Databases.head? = some database →
        (rows (databases config.bindings)).head? =
          some (database.binding, some database.targetName) ∧
        ∃ call later, (launch config options).run.calls refuses m = call :: later ∧
          call.child.program = "npx" ∧ call.child.arguments =
            ["wrangler", "d1", "execute", database.targetName, options.site.flag, "--file",
              script.text] := by
  refine ⟨?_, fun _ => rfl, ?_⟩
  · intro resource
    refine ⟨tableHead resource, tableTail resource, fun config routes => ?_⟩
    refine ⟨_, (declaredRows config.bindings resource).map rowLine,
      renderGlobal_name config routes (tableFile resource), ?_⟩
    rw [content_tableFile]
    exact ⟨rfl, lines_tableFile _ resource, map_readRow? _, rows_tableFile _ resource⟩
  · intro refuses config options m script database hinit hprimary
    have hrows := rows_tableFile config.bindings .d1
    rw [← content_tableFile config []] at hrows
    have hfirst : (declaredRows config.bindings .d1).head? =
        some (database.binding, some database.targetName) := by
      rw [declaredRows, List.head?_map, hprimary]
      rfl
    refine ⟨(congrArg List.head? hrows).trans hfirst, ?_⟩
    have hcourse := (course_launch refuses config options m).1
    generalize (launch config options).run.calls refuses m = calls at hcourse
    cases hcourse with
    | noDatabase _ hnone => simp [hnone] at hprimary
    | plain hplain => simp [hplain] at hinit
    | notApplied hscript hdatabase hchild =>
        obtain rfl := Option.some.inj (hscript.symm.trans hinit)
        obtain rfl := Option.some.inj (hdatabase.symm.trans hprimary)
        exact ⟨_, _, rfl, by rw [hchild]; rfl, by rw [hchild]; rfl⟩
    | applied hscript hdatabase hchild =>
        obtain rfl := Option.some.inj (hscript.symm.trans hinit)
        obtain rfl := Option.some.inj (hdatabase.symm.trans hprimary)
        exact ⟨_, _, rfl, by rw [hchild]; rfl, by rw [hchild]; rfl⟩

/-- Inputs with a database whose binding looks like the end of a row, and one without letters. -/
def unusual : Config :=
  { (default : Config) with bindings := { Manifest.empty with
      d1Databases := [⟨"A\": \"a\",\n", none, none⟩, ⟨"", some "", none⟩] } }

/-- A launch on this machine with a script. -/
def withScript : LaunchOptions := ⟨"build", some "init.sql", .here⟩

theorem rows_decode_unusual :
    withScript.init = some "init.sql" ∧
    unusual.bindings.d1Databases.head? = some ⟨"A\": \"a\",\n", none, none⟩ ∧
    (rows (databases unusual.bindings)).head? =
      some ("A\": \"a\",\n", some "A\": \"a\",\n") ∧
    ∃ call later, (Launch.launch unusual withScript).run.calls (fun _ => none)
        ⟨.new (.dir []) [], 0⟩ = call :: later ∧
      call.child.arguments =
        ["wrangler", "d1", "execute", "A\": \"a\",\n", "--local", "--file", "init.sql"] := by
  obtain ⟨hrows, call, later, hcalls, -, harguments⟩ := rows_decode.2.2 (fun _ => none) unusual
    withScript ⟨.new (.dir []) [], 0⟩ "init.sql" ⟨"A\": \"a\",\n", none, none⟩ rfl rfl
  exact ⟨rfl, rfl, hrows, call, later, hcalls, harguments⟩

end Worker

end WorkerGen
