import Mathlib
import WorkerGen.Proofs.Api.Declarations
import WorkerGen.Proofs.Data.Unplaced

/-!
# A description does not depend on where nodes start

Every record of a description is read from texts, values and entries, which all ignore where nodes
start.  So does the description: documents with the same unplaced nodes have the same one
(`ofDocument_unplaced`).  There is one lemma for each record, and it follows the definition of its
reader field by field.

A document is read from its root with no aliases followed yet (`ofDocument_eq_ok_iff`), so what is
said of the outcome of the reader of a description is said of documents.
-/

namespace WorkerGen

open Reader
open Yaml (Node)

variable {α β : Type}

@[simp]
lemma outcome_readField {a : Anchors} (name : String) (seen : Option α) (x : Reader α) :
    outcome a (Format.document.readField name seen x)
      = if seen.isSome then failure else some <$> outcome a x := by
  rw [Format.readField]
  split_ifs
  · rfl
  · rw [map_eq_pure_bind]
    exact outcome_bind x fun v => pure (some v)

namespace Cursor

/-- A field ignores where it starts if its value does, whatever it is kept in. -/
lemma IgnoresStarts.readField {read : Cursor → Reader α} (h : IgnoresStarts read) (name : String)
    (seen : Option α) {keep : Option α → β} :
    IgnoresStarts fun c => do
      return keep (← Format.document.readField name seen (read c)) := by
  intro a c
  simp only [outcome_bind, outcome_readField, h a c]
  rfl

lemma ignoresStarts_optionalText : IgnoresStarts optionalText := .optional (ignoresStarts_text _)

lemma ignoresStarts_lenientText : IgnoresStarts lenientText :=
  (IgnoresStarts.optional ignoresStarts_json).bind fun _ => .pure _

lemma ignoresStarts_texts : IgnoresStarts texts :=
  .entries (fun _ _ => (ignoresStarts_text _).bind fun _ => .pure _) fun _ => .pure _

lemma ignoresStarts_step : IgnoresStarts step := by
  refine .entries (fun f name a c => ?_) fun f a c => ?_
  · unfold Format.stepField
    split_ifs
    · exact ignoresStarts_optionalText.readField _ _ a c
    · exact ignoresStarts_optionalText.readField _ _ a c
    · exact Buffered.ignoresStarts_read.bind (fun _ => .pure _) a c
  · have horFail : IgnoresStarts fun _ => orFail (Parameters.toAction f.parameters.reverse) :=
      fun _ _ => outcome_orFail _
    exact horFail.bind (fun _ => .pure _) a c

lemma ignoresStarts_response : IgnoresStarts response := by
  refine .record (fun f name a c => ?_) fun f => .pure _
  split_ifs
  · exact ignoresStarts_word16.readField _ _ a c
  · exact ignoresStarts_texts.readField _ _ a c
  · exact (IgnoresStarts.optional ignoresStarts_json).readField _ _ a c
  · rfl

lemma ignoresStarts_operation : IgnoresStarts operation := by
  refine .record (fun f name a c => ?_) fun f => .pure _
  split_ifs
  · exact ignoresStarts_optionalText.readField _ _ a c
  · exact ignoresStarts_optionalText.readField _ _ a c
  · exact (IgnoresStarts.optional (.items ignoresStarts_step)).readField _ _ a c
  · exact (IgnoresStarts.optional ignoresStarts_response).readField _ _ a c
  · rfl

lemma ignoresStarts_addOperation (item : PathItem) (name : String) :
    IgnoresStarts (addOperation item name) := by
  intro a c
  rw [addOperation, Format.addOperation, Format.addOperation]
  cases Method.ofName? name with
  | none => rfl
  | some method =>
      have hadd : ∀ operation : Option Operation, IgnoresStarts fun _ =>
          orFail (PathItem.add item method (operation.getD .blank)) :=
        fun _ _ _ => outcome_orFail _
      exact (IgnoresStarts.optional ignoresStarts_operation).bind hadd a c

lemma ignoresStarts_pathItem : IgnoresStarts pathItem :=
  IgnoresStarts.entriesOrNull ignoresStarts_addOperation

lemma ignoresStarts_paths : IgnoresStarts paths :=
  .entries (fun _ _ => ignoresStarts_pathItem.bind fun _ => .pure _) fun _ => .pure _

lemma ignoresStarts_info : IgnoresStarts info := by
  refine .record (fun f name a c => ?_) fun f => .pure _
  split_ifs
  · exact ignoresStarts_optionalText.readField _ _ a c
  · exact ignoresStarts_lenientText.readField _ _ a c
  · exact ignoresStarts_optionalText.readField _ _ a c
  · rfl

lemma ignoresStarts_defaults : IgnoresStarts defaults := by
  refine .record (fun f name a c => ?_) fun f => .pure _
  split_ifs
  · exact ignoresStarts_optionalText.readField _ _ a c
  · exact ignoresStarts_optionalText.readField _ _ a c
  · exact ignoresStarts_optionalText.readField _ _ a c
  · rfl

lemma ignoresStarts_api : IgnoresStarts api := by
  refine .record (fun f name a c => ?_) fun f => .pure _
  split_ifs
  · exact ignoresStarts_lenientText.readField _ _ a c
  · exact ignoresStarts_info.readField _ _ a c
  · exact ignoresStarts_paths.readField _ _ a c
  · exact ignoresStarts_defaults.readField _ _ a c
  · rfl

end Cursor

/-! ## Documents -/

namespace Yaml.Document

/-- A document without the places of its nodes. -/
def unplaced (d : Yaml.Document) : Yaml.Document :=
  ⟨d.root.map Node.unplaced, d.anchored.map fun e => (e.1, e.2.unplaced)⟩

lemma anchors_unplaced (d : Yaml.Document) : d.unplaced.anchors = d.anchors.unplaced := by
  have hweight : d.unplaced.weight = d.weight := by
    cases hroot : d.root <;> simp [weight, unplaced, hroot, Node.weight_unplaced]
  rw [anchors, hweight]
  rfl

end Yaml.Document

namespace Api

/-- A document is read from its root, with no aliases followed yet. -/
lemma ofDocument_eq_ok_iff {d : Yaml.Document} {root : Node} (hroot : d.root = some root)
    {api : Api} :
    ofDocument d = .ok api ↔ ∃ m,
      outcome d.anchors (Cursor.api ⟨root, .root, Cursor.depthLimit⟩) 0 = some (api, m) := by
  have hread : d.read .empty Cursor.api
      = (Cursor.api ⟨root, .root, Cursor.depthLimit⟩ d.anchors 0).map (·.1) := by
    rw [Yaml.Document.read, hroot]
    rfl
  simp only [ofDocument, hread, outcome_eq_some]
  cases Cursor.api ⟨root, .root, Cursor.depthLimit⟩ d.anchors 0 <;> simp [Except.map, Prod.ext_iff]

/-- **Documents that differ in places alone have the same description.** -/
theorem ofDocument_unplaced {d : Yaml.Document} {api : Api} :
    ofDocument d.unplaced = .ok api ↔ ofDocument d = .ok api := by
  cases hroot : d.root with
  | none =>
      have hempty : d.unplaced.root = none := by rw [Yaml.Document.unplaced, hroot]; rfl
      rw [ofDocument, ofDocument, Yaml.Document.read, Yaml.Document.read, hroot, hempty]
  | some root =>
      have hunplaced : d.unplaced.root = some root.unplaced := by
        rw [Yaml.Document.unplaced, hroot]
        rfl
      have hsame := Cursor.ignoresStarts_api d.anchors ⟨root, .root, Cursor.depthLimit⟩
      rw [ofDocument_eq_ok_iff hroot, ofDocument_eq_ok_iff hunplaced, d.anchors_unplaced, hsame]
      rfl

end Api

end WorkerGen
