import Mathlib
import WorkerGen.Route

/-!
# Segments of paths

A path has one segment for every piece between its slashes that is not empty, in order, and a
segment keeps the text of its piece (`forall₂_source_ofPath`).  A piece is a parameter exactly if it
is something in braces (`isParam_ofPiece`); what stands between the braces is not looked at.

* `IsTemplate` — the whole of a piece is a template: a name without braces, in braces.
* `Reads` — what a piece should become: a template a parameter, all else a literal.
* `new_reads_iff` — a path is read so exactly if nothing that stands in braces holds a brace.

Pieces such as two templates in a row begin and end with braces without being a template.  They are
the difference between what a piece should become and what it becomes (`not_reads_twoTemplates`),
and the parameters of a path are counted with them (`countP_isParam_ofPath`).
-/

namespace WorkerGen

/-- Splitting a text at a separator is splitting a list. -/
lemma Text.pieces_eq_splitOn (sep : Char) : ∀ s : List Char, pieces sep s = s.splitOn sep
  | [] => rfl
  | c :: rest => by
      rw [pieces, pieces_eq_splitOn sep rest, List.splitOn, List.splitOn,
        List.splitOnP_cons_eq_if_modifyHead]
      by_cases hc : c = sep
      · simp [hc]
      · cases hrest : rest.splitOnP (· == sep) with
        | nil => exact absurd hrest (List.splitOnP_ne_nil _ _)
        | cons piece more => simp [hc]

/-- The pieces of a path between its slashes that are not empty. -/
def pathPieces (path : String) : List (List Char) := (path.toList.splitOn '/').filter (!·.isEmpty)

namespace Segment

/-- A text in braces. -/
def braced (inner : List Char) : List Char := '{' :: (inner ++ ['}'])

/-- A piece is something in braces, which may hold braces again. -/
def IsBraced (piece : List Char) : Prop := ∃ inner, inner ≠ [] ∧ piece = braced inner

/-- The name of a template is not empty and holds no brace. -/
def IsName (name : List Char) : Prop := name ≠ [] ∧ '{' ∉ name ∧ '}' ∉ name

/-- The whole of a piece is a template: a name in braces. -/
def IsTemplate (piece : List Char) : Prop := ∃ name, IsName name ∧ piece = braced name

/-- A piece is something in braces that holds a brace itself, such as two templates in a row. -/
def IsNested (piece : List Char) : Prop := IsBraced piece ∧ ¬IsTemplate piece

/-- The text that a segment is made of. -/
def source : Segment → List Char
  | .literal text => text.toList
  | .param name => braced name.toList

/-! ## Braces

A text in braces has its first and last character, and what is between them is read off.  A single
brace is not a text in braces. -/

lemma braced_injective {inner other : List Char} (h : braced inner = braced other) :
    inner = other := List.append_cancel_right (List.cons.inj h).2

lemma braced_inner {inner : List Char} : (braced inner).tail.dropLast = inner := by simp [braced]

lemma exists_eq_braced_iff {p : List Char → Prop} {piece : List Char} :
    (∃ inner, p inner ∧ piece = braced inner) ↔
      p piece.tail.dropLast ∧ piece = braced piece.tail.dropLast := by
  constructor
  · rintro ⟨inner, hp, rfl⟩
    rw [braced_inner]
    exact ⟨hp, rfl⟩
  · rintro ⟨hp, hpiece⟩
    exact ⟨_, hp, hpiece⟩

instance : DecidablePred IsBraced := fun _ => decidable_of_iff' _ exists_eq_braced_iff

instance : DecidablePred IsName := fun _ => inferInstanceAs (Decidable (_ ∧ _))

instance : DecidablePred IsTemplate := fun _ => decidable_of_iff' _ exists_eq_braced_iff

instance : DecidablePred IsNested := fun _ => inferInstanceAs (Decidable (_ ∧ _))

lemma IsTemplate.isBraced {piece : List Char} : IsTemplate piece → IsBraced piece
  | ⟨name, hname, hpiece⟩ => ⟨name, hname.1, hpiece⟩

/-! ## One piece

What a piece becomes is decided by its first and last character. -/

section

variable {piece : List Char}

lemma ofPiece_braced {inner : List Char} (h : inner ≠ []) :
    ofPiece (braced inner) = .param (String.ofList inner) := by
  obtain ⟨front, last, rfl⟩ : ∃ front last, inner = front ++ [last] :=
    ⟨_, _, (List.dropLast_append_getLast h).symm⟩
  simp [ofPiece, braced]

lemma ofPiece_of_not_isBraced (h : ¬IsBraced piece) :
    ofPiece piece = .literal (String.ofList piece) := by
  unfold ofPiece
  split
  · rename_i rest
    split
    · rename_i c more hreverse
      have hrest : rest = (c :: more).reverse ++ ['}'] := by
        rw [← List.reverse_reverse rest, hreverse, List.reverse_cons]
      exact absurd ⟨(c :: more).reverse, by simp, by rw [hrest, braced]⟩ h
    · rfl
  · rfl

/-- **A piece is a parameter exactly if it is something in braces.** -/
theorem isParam_ofPiece : (ofPiece piece).isParam = true ↔ IsBraced piece := by
  by_cases hbraced : IsBraced piece
  · obtain ⟨inner, hinner, rfl⟩ := hbraced
    simp only [ofPiece_braced hinner, isParam, true_iff]
    exact ⟨inner, hinner, rfl⟩
  · simp [ofPiece_of_not_isBraced hbraced, isParam, hbraced]

/-- A segment keeps the text of its piece. -/
lemma source_ofPiece : (ofPiece piece).source = piece := by
  by_cases hbraced : IsBraced piece
  · obtain ⟨inner, hinner, rfl⟩ := hbraced
    rw [ofPiece_braced hinner, source, String.toList_ofList]
  · rw [ofPiece_of_not_isBraced hbraced, source, String.toList_ofList]

/-- What a piece should become: a template a parameter under its name, all else a literal. -/
inductive Reads : List Char → Segment → Prop where
  | param {name : List Char} : IsName name → Reads (braced name) (.param (String.ofList name))
  | literal {piece : List Char} : ¬IsTemplate piece →
      Reads piece (.literal (String.ofList piece))

lemma Reads.isParam_iff {s : Segment} (h : Reads piece s) :
    s.isParam = true ↔ IsTemplate piece := by
  cases h with
  | param hname => exact iff_of_true rfl ⟨_, hname, rfl⟩
  | literal hnone => exact iff_of_false (by simp [isParam]) hnone

/-- A piece is read as it should be exactly if it is not in braces around another brace. -/
lemma reads_ofPiece_iff : Reads piece (ofPiece piece) ↔ ¬IsNested piece := by
  by_cases hbraced : IsBraced piece
  · obtain ⟨inner, hinner, rfl⟩ := id hbraced
    rw [ofPiece_braced hinner, IsNested, not_and_not_right]
    constructor
    · intro hreads _
      exact hreads.isParam_iff.mp rfl
    · intro htemplate
      obtain ⟨name, hname, hpiece⟩ := htemplate hbraced
      obtain rfl := braced_injective hpiece
      exact .param hname
  · rw [ofPiece_of_not_isBraced hbraced]
    exact iff_of_true (.literal fun htemplate => hbraced htemplate.isBraced)
      fun hnested => hbraced hnested.1

end

/-! ## Whole paths

A path is divided into pieces, and each of them becomes a segment by itself. -/

section

variable (path : String)

lemma ofPath_eq_map : ofPath path = (pathPieces path).map ofPiece := by
  rw [ofPath, pathPieces, Text.pieces_eq_splitOn]

/-- **A path has one segment for every piece that is not empty**, in order and with its text. -/
theorem forall₂_source_ofPath : List.Forall₂
    (fun piece s => s.source = piece ∧ (s.isParam = true ↔ IsBraced piece))
    (pathPieces path) (ofPath path) := by
  rw [ofPath_eq_map, List.forall₂_map_right_iff, List.forall₂_same]
  exact fun _ _ => ⟨source_ofPiece, isParam_ofPiece⟩

lemma forall₂_reads_iff : List.Forall₂ Reads (pathPieces path) (ofPath path) ↔
    ∀ piece ∈ pathPieces path, ¬IsNested piece := by
  rw [ofPath_eq_map, List.forall₂_map_right_iff, List.forall₂_same]
  exact forall₂_congr fun _ _ => reads_ofPiece_iff

/-- The parameters of a path are its templates and the pieces that have braces in braces. -/
lemma countP_isParam_ofPath : (ofPath path).countP isParam =
    (pathPieces path).countP (IsTemplate ·) + (pathPieces path).countP (IsNested ·) := by
  have hparam : ∀ piece, ((isParam ∘ ofPiece) piece = true) ↔ decide (IsBraced piece) = true := by
    simp [isParam_ofPiece]
  rw [ofPath_eq_map, List.countP_map, List.countP_congr fun piece _ => hparam piece,
    List.countP_eq_countP_filter_add _ _ (fun piece => decide (IsTemplate piece)),
    List.countP_filter, List.countP_filter]
  congr 1
  · refine List.countP_congr fun piece _ => ?_
    simpa using IsTemplate.isBraced
  · refine List.countP_congr fun piece _ => ?_
    simp only [Bool.and_eq_true, Bool.not_eq_true', decide_eq_true_iff, decide_eq_false_iff_not]
    rfl

end

end Segment

namespace Route

open Segment

/-- **How a path is divided.**  There is a segment for every piece that is not empty, in order and
with its text; a piece is a parameter exactly if it is something in braces.  The parameters are the
templates, and all else is literal, exactly if nothing in braces holds a brace; and so it is with
the number of parameters. -/
theorem new_reads_iff (method : Method) (path : String) (handler : Option String) :
    List.Forall₂ (fun piece s => s.source = piece ∧ (s.isParam = true ↔ IsBraced piece))
      (pathPieces path) (new method path handler).segments ∧
    (List.Forall₂ Reads (pathPieces path) (new method path handler).segments ↔
      ∀ piece ∈ pathPieces path, ¬IsNested piece) ∧
    ((new method path handler).paramCount = (pathPieces path).countP (IsTemplate ·) ↔
      ∀ piece ∈ pathPieces path, ¬IsNested piece) := by
  refine ⟨forall₂_source_ofPath path, forall₂_reads_iff path, ?_⟩
  have hnested : (pathPieces path).countP (IsNested ·) = 0 ↔
      ∀ piece ∈ pathPieces path, ¬IsNested piece := by simp [List.countP_eq_zero]
  rw [paramCount, new, countP_isParam_ofPath, ← hnested]
  omega

/-- Two templates in one piece are read as one parameter, although neither is the whole of it. -/
theorem not_reads_twoTemplates :
    (new .get "/\x7ba\x7d-\x7bb\x7d" none).segments = [.param "a\x7d-\x7bb"] ∧
      ¬List.Forall₂ Reads (pathPieces "/\x7ba\x7d-\x7bb\x7d")
        (new .get "/\x7ba\x7d-\x7bb\x7d" none).segments ∧
      (new .get "/\x7ba\x7d-\x7bb\x7d" none).paramCount ≠
        (pathPieces "/\x7ba\x7d-\x7bb\x7d").countP (IsTemplate ·) := by
  have hpieces : pathPieces "/\x7ba\x7d-\x7bb\x7d" = ["\x7ba\x7d-\x7bb\x7d".toList] := by
    decide +kernel
  have hnested : IsNested "\x7ba\x7d-\x7bb\x7d".toList := by decide
  refine ⟨by decide +kernel, fun hreads => ?_, by decide +kernel⟩
  exact (forall₂_reads_iff _).mp hreads _ (by simp [hpieces]) hnested

end Route

end WorkerGen
