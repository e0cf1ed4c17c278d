import Mathlib
import WorkerGen.Proofs.Worker.Lines
import WorkerGen.Worker.Entry

/-!
# The head of the entry

The entry names the worker and the description in comments at its head.  These texts are written as
they are and not as JSON, so a line end in one of them ends the comment, and what follows it becomes
a line of the program.

* `HeaderOnly` — the names stay in the head: the entry has as many lines as one without names, the
  second and third line are comments, and all that follows is the same for all inputs.
* `headerOnly_iff` — this holds exactly if no name holds a line end.

A comment ends where the language of the worker has a line end, which it may have at other
characters than the line feed, so `LineRule` is a parameter of both.  The equivalence is by counting
lines: an entry has those of one without names, and one more for every line end in a name.
-/

namespace WorkerGen

open LineRule

/-! ## Names in the head

Three texts are named: the worker, and the title and version of the description.  Without them the
entry says that they are absent. -/

/-- The same inputs without the texts that the head of the entry names. -/
def Config.unnamed (config : Config) : Config :=
  { config with
    bindings := { config.bindings with name := none }
    api := { config.api with info := { config.api.info with title := none, version := none } } }

/-- No text that the head of the entry names holds a line end. -/
def Config.PlainNames (rule : LineRule) (config : Config) : Prop :=
  (∀ s ∈ config.bindings.name, rule.Within s) ∧ (∀ s ∈ config.api.info.title, rule.Within s) ∧
    ∀ s ∈ config.api.info.version, rule.Within s

namespace Worker

/-- The texts that the entry names stay in the comments at its head. -/
structure HeaderOnly (rule : LineRule) (config : Config) : Prop where
  count : (rule.lines (entry config)).length = (rule.lines (entry config.unnamed)).length
  worker : ∃ text, (rule.lines (entry config))[1]? = some ("// Worker: " ++ text)
  api : ∃ text, (rule.lines (entry config))[2]? = some ("// API: " ++ text)
  rest : ∀ other : Config,
    (rule.lines (entry config)).drop 3 = (rule.lines (entry other.unnamed)).drop 3

/-- Without names all entries are the same. -/
lemma entry_unnamed (config other : Config) : entry config.unnamed = entry other.unnamed := rfl

/-! ## Counting lines

How many lines a text has is how many line ends it has, whatever stands between them. -/

/-- The number of line ends in a text. -/
def lineEnds (rule : LineRule) (text : String) : ℕ := text.toList.countP rule.ends

lemma lineEnds_eq_zero {rule : LineRule} {text : String} :
    lineEnds rule text = 0 ↔ rule.Within text := by
  simp [lineEnds, LineRule.Within, List.countP_eq_zero]

lemma lineEnds_append (rule : LineRule) (s t : String) :
    lineEnds rule (s ++ t) = lineEnds rule s + lineEnds rule t := by
  simp [lineEnds]

/-- A file has a line for every line that is written and for every line end inside of one. -/
lemma length_lines_ofLines (rule : LineRule) (lines : List String) :
    (rule.lines (ofLines lines)).length = (lines.map fun line => lineEnds rule line + 1).sum := by
  simp [length_lines, toList_ofLines, List.countP_flatMap, lineEnds, rule.ends_newline,
    Function.comp_def]

/-- The lines of the entry below its head, which are the same for all inputs. -/
def entryRest : List String := (entryLines default).drop 3

lemma entryLines_eq (config : Config) : entryLines config = banner ::
    ("// Worker: " ++ config.bindings.name.getD "worker") ::
    ("// API: " ++ config.api.info.title.getD "untitled" ++ " " ++
      config.api.info.version.getD "") :: entryRest := rfl

lemma within_entryRest (rule : LineRule) : ∀ line ∈ entryRest, rule.Within line := by
  have hlong : rule.Within ("      return json(\x7b error: 'Internal Server Error'," ++
      " message: error && error.message ? error.message : String(error) \x7d, 500);") := by
    rw [within_append]
    cases rule <;> exact ⟨within_ofList (by decide), within_ofList (by decide)⟩
  simp only [entryRest, entryLines, entryBody, List.cons_append, List.nil_append,
    List.drop_succ_cons, List.drop_zero]
  cases rule <;>
    · iterate 10 refine List.forall_mem_cons.mpr ⟨within_ofList (by decide), ?_⟩
      refine List.forall_mem_cons.mpr ⟨hlong, ?_⟩
      repeat refine List.forall_mem_cons.mpr ⟨within_ofList (by decide), ?_⟩
      simp

lemma within_getD {rule : LineRule} {text : Option String} {absent : String}
    (habsent : rule.Within absent) :
    rule.Within (text.getD absent) ↔ ∀ s ∈ text, rule.Within s := by
  cases text <;> simp [habsent]

/-- The texts that stand for absent names hold no line end. -/
lemma within_absent (rule : LineRule) :
    rule.Within "worker" ∧ rule.Within "untitled" ∧ rule.Within "" ∧ rule.Within " " := by
  cases rule <;> refine ⟨?_, ?_, ?_, ?_⟩ <;> exact within_ofList (by decide)

/-- The comments at the head hold no line end but those of the names. -/
lemma within_head (rule : LineRule) :
    rule.Within banner ∧ rule.Within "// Worker: " ∧ rule.Within "// API: " := by
  unfold banner
  cases rule <;> refine ⟨?_, ?_, ?_⟩ <;> exact within_ofList (by decide)

lemma plainNames_iff {rule : LineRule} {config : Config} : config.PlainNames rule ↔
    rule.Within (config.bindings.name.getD "worker") ∧
      rule.Within (config.api.info.title.getD "untitled") ∧
      rule.Within (config.api.info.version.getD "") := by
  obtain ⟨hworker, huntitled, hempty, -⟩ := within_absent rule
  rw [Config.PlainNames, within_getD hworker, within_getD huntitled, within_getD hempty]

/-- No line of the entry holds a line end if no name does. -/
lemma within_entryLines {rule : LineRule} {config : Config} (h : config.PlainNames rule) :
    ∀ line ∈ entryLines config, rule.Within line := by
  obtain ⟨hname, htitle, hversion⟩ := plainNames_iff.mp h
  obtain ⟨-, -, -, hspace⟩ := within_absent rule
  obtain ⟨hbanner, hworker, hapi⟩ := within_head rule
  rw [entryLines_eq]
  simp only [List.forall_mem_cons, LineRule.within_append]
  exact ⟨hbanner, ⟨hworker, hname⟩, ⟨⟨⟨hapi, htitle⟩, hspace⟩, hversion⟩, within_entryRest rule⟩

lemma plainNames_unnamed (rule : LineRule) (config : Config) :
    config.unnamed.PlainNames rule := by
  simp [Config.PlainNames, Config.unnamed]

/-- The entry has the lines of one without names, and one more for every line end in a name. -/
lemma length_lines_entry (rule : LineRule) (config : Config) :
    (rule.lines (entry config)).length = (rule.lines (entry config.unnamed)).length
      + lineEnds rule (config.bindings.name.getD "worker")
      + lineEnds rule (config.api.info.title.getD "untitled")
      + lineEnds rule (config.api.info.version.getD "") := by
  obtain ⟨hworker, huntitled, hempty, -⟩ := within_absent rule
  have hname : lineEnds rule (config.unnamed.bindings.name.getD "worker") = 0 :=
    lineEnds_eq_zero.mpr hworker
  have htitle : lineEnds rule (config.unnamed.api.info.title.getD "untitled") = 0 :=
    lineEnds_eq_zero.mpr huntitled
  have hversion : lineEnds rule (config.unnamed.api.info.version.getD "") = 0 :=
    lineEnds_eq_zero.mpr hempty
  rw [entry, entry, length_lines_ofLines, length_lines_ofLines, entryLines_eq config,
    entryLines_eq config.unnamed]
  simp only [List.map_cons, List.sum_cons, lineEnds_append]
  omega

/-- **The names stay in the head exactly if none of them holds a line end.** -/
theorem headerOnly_iff (rule : LineRule) (config : Config) :
    HeaderOnly rule config ↔ config.PlainNames rule := by
  constructor
  · intro h
    have hcount := h.count
    rw [length_lines_entry] at hcount
    refine plainNames_iff.mpr ⟨?_, ?_, ?_⟩ <;> (rw [← lineEnds_eq_zero]; omega)
  · intro h
    have hlines : rule.lines (entry config) = entryLines config :=
      lines_ofLines (within_entryLines h)
    have hunnamed : rule.lines (entry config.unnamed) = entryLines config.unnamed :=
      lines_ofLines (within_entryLines (plainNames_unnamed rule config))
    refine ⟨?_, ⟨config.bindings.name.getD "worker", ?_⟩,
      ⟨config.api.info.title.getD "untitled" ++ " " ++ config.api.info.version.getD "", ?_⟩,
      fun other => ?_⟩
    · rw [hlines, hunnamed]
      rfl
    · rw [hlines]
      rfl
    · rw [hlines]
      simp [entryLines, String.append_assoc]
    · rw [entry_unnamed other config, hlines, hunnamed]
      rfl

/-- A description whose title has two lines. -/
def titledInTwo : Config :=
  { (default : Config) with api := { Api.empty with info := ⟨some "a\nthrow 1", none, none⟩ } }

/-- The lines of its entry, of which the fourth is no comment. -/
def titledInTwoLines : List String :=
  banner :: "// Worker: worker" :: "// API: a" :: "throw 1 " :: entryRest

lemma entry_titledInTwo : entry titledInTwo = ofLines titledInTwoLines := by
  have hsplit : entryLines titledInTwo = banner :: ("// Worker: " ++ "worker") ::
      ("// API: " ++ "a\nthrow 1" ++ " " ++ "") :: entryRest := entryLines_eq titledInTwo
  have hworker : "// Worker: " ++ "worker" = "// Worker: worker" := by decide
  have hapi : "// API: " ++ "a\nthrow 1" ++ " " ++ "" ++ "\n"
      = "// API: a" ++ "\n" ++ ("throw 1 " ++ "\n") := by decide
  rw [entry, hsplit, titledInTwoLines, ofLines, ofLines]
  simp only [List.map_cons, String.join_cons, hworker, hapi]
  simp only [String.append_assoc]

/-- The second line of a title is a line of the program. -/
theorem not_headerOnly_titledInTwo :
    (LineRule.lineFeed.lines (entry titledInTwo))[3]? = some "throw 1 " ∧
      ¬HeaderOnly .lineFeed titledInTwo := by
  have hhead : ∀ line ∈ titledInTwoLines.take 4, LineRule.lineFeed.Within line := by
    simp only [titledInTwoLines, banner, List.take_succ_cons, List.take_zero]
    iterate 4 refine List.forall_mem_cons.mpr ⟨within_ofList (by decide), ?_⟩
    simp
  have hwithin : ∀ line ∈ titledInTwoLines, LineRule.lineFeed.Within line := by
    rw [← List.take_append_drop 4 titledInTwoLines, List.forall_mem_append]
    exact ⟨hhead, within_entryRest .lineFeed⟩
  have hlines : LineRule.lineFeed.lines (entry titledInTwo) = titledInTwoLines := by
    rw [entry_titledInTwo, lines_ofLines hwithin]
  refine ⟨by rw [hlines]; rfl, fun h => ?_⟩
  have hcount := h.count
  rw [length_lines_entry] at hcount
  have htitle : lineEnds .lineFeed (titledInTwo.api.info.title.getD "untitled") = 1 := by
    simp [lineEnds, titledInTwo, ends]
  omega

end Worker

end WorkerGen
