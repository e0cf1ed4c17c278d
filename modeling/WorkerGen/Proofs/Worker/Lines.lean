import Mathlib
import WorkerGen.Proofs.Json.ReadBack
import WorkerGen.Worker.Text

/-!
# Lines of generated text

A generated file is written line by line.  This file says when its lines are found again
(`lines_ofLines`): when no line holds a line end of its own.  JSON text never holds a line feed
(`within_encode`), so what is written as JSON stays on the line it is put on.

Most lines of a file are literals.  That none of them holds a line end is decided on the list of
their characters (`within_ofList`), and not on the text, which would have to be decoded first.
-/

namespace WorkerGen

/-! ## Lines -/

/-- What ends a line. -/
inductive LineRule where
  /-- The line feed alone. -/
  | lineFeed
  /-- The four line ends of the generated language. -/
  | script
deriving DecidableEq, Inhabited, Repr

namespace LineRule

/-- Whether a character ends a line. -/
def ends : LineRule → Char → Bool
  | .lineFeed, c => c == '\n'
  | .script, c => c == '\n' || c == '\r' || c == '\u2028' || c == '\u2029'

/-- The lines of a text.  What stands behind the last line end is none. -/
def lines (rule : LineRule) (text : String) : List String :=
  ((text.toList.splitOnP rule.ends).dropLast).map String.ofList

/-- Whether no character of a text ends a line. -/
def Within (rule : LineRule) (text : String) : Prop := ∀ c ∈ text.toList, rule.ends c = false

instance (rule : LineRule) (text : String) : Decidable (rule.Within text) :=
  List.decidableBAll (fun c => rule.ends c = false) text.toList

lemma ends_newline : ∀ rule : LineRule, rule.ends '\n' = true
  | .lineFeed => rfl
  | .script => rfl

variable {rule : LineRule}

lemma within_append {s t : String} : rule.Within (s ++ t) ↔ rule.Within s ∧ rule.Within t := by
  simp [Within, or_imp, forall_and]

/-- A literal of the generated text is a list of characters, of which none has to end a line. -/
lemma within_ofList {s : List Char} (h : (s.all fun c => !rule.ends c) = true) :
    rule.Within (String.ofList s) := by
  intro c hc
  rw [String.toList_ofList] at hc
  simpa using List.all_eq_true.mp h c hc

lemma length_splitOnP {α : Type} (p : α → Bool) : ∀ s : List α,
    (s.splitOnP p).length = s.countP p + 1
  | [] => rfl
  | c :: s => by
      rw [List.splitOnP_cons_eq_if_modifyHead]
      cases hc : p c with
      | true => simp [hc, length_splitOnP p s]
      | false => simp [hc, length_splitOnP p s]

/-- A text has as many lines as line ends. -/
lemma length_lines (text : String) :
    (rule.lines text).length = text.toList.countP rule.ends := by
  simp [lines, length_splitOnP]

end LineRule

namespace Worker

open LineRule

lemma toList_ofLines (lines : List String) :
    (ofLines lines).toList = lines.flatMap fun line => line.toList ++ ['\n'] := by
  simp [ofLines, String.toList_join, List.flatMap_map]

/-- **Lines are found again** if none of them holds a line end of its own. -/
theorem lines_ofLines {rule : LineRule} {lines : List String}
    (h : ∀ line ∈ lines, rule.Within line) :
    rule.lines (ofLines lines) = lines := by
  have hsplit : (ofLines lines).toList.splitOnP rule.ends = lines.map String.toList ++ [[]] := by
    rw [toList_ofLines]
    induction lines with
    | nil => rfl
    | cons line lines ih =>
        obtain ⟨hline, hlines⟩ := List.forall_mem_cons.mp h
        rw [List.flatMap_cons, List.append_assoc, List.singleton_append,
          List.splitOnP_append_cons_of_forall_mem hline '\n' rule.ends_newline, ih hlines]
        rfl
  rw [LineRule.lines, hsplit, List.dropLast_concat, List.map_map]
  simp [Function.comp_def]

/-- Files with the same text have the same lines. -/
lemma ofLines_inj {rule : LineRule} {lines lines' : List String}
    (h : ∀ line ∈ lines, rule.Within line) (h' : ∀ line ∈ lines', rule.Within line)
    (heq : ofLines lines = ofLines lines') : lines = lines' := by
  rw [← lines_ofLines h, ← lines_ofLines h', heq]

/-! ## JSON on a line -/

lemma toList_quote (s : String) : (quote s).toList = Json.literal s := by
  simp [quote, Json.encode, Json.text]

lemma within_encode (v : Json) : LineRule.lineFeed.Within v.encode := by
  intro c hc
  rw [Json.encode, String.toList_ofList] at hc
  have hle := Json.le_of_mem_text v c hc
  have hne : c ≠ '\n' := by rintro rfl; revert hle; decide
  simpa [ends] using hne

lemma within_quote (s : String) : LineRule.lineFeed.Within (quote s) := within_encode _

end Worker

end WorkerGen
