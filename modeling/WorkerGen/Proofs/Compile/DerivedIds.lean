import Mathlib
import WorkerGen.Proofs.Compile.Names
import WorkerGen.Proofs.Text

/-!
# Derived ids

An operation that gives itself no id gets one from its method and its path.  The path is not shown
in full: `idPath` is what is left of it.  Method names hold no `_`, so the first one in a derived id
ends the method, and two derived ids are the same exactly if the methods are and the paths leave the
same (`fallbackId_eq_iff`).

Slashes are among the characters that are not shown, so a derived id is the name of a file exactly
if no other character of the path rules that out (`isPlainFileName_fallbackId`).
`derived_ids_clash_iff` says what this means for the ids of a whole list of operations.
-/

namespace WorkerGen

open Text

/-- What a derived id shows of a path: the leading slash is left out, and every other slash and
every brace becomes `_`. -/
def idPath (path : String) : List Char :=
  ((dropStart? ['/'] path.toList).getD path.toList).map fun c =>
    if c ∈ ['/', '\x7b', '\x7d'] then '_' else c

lemma toList_fallbackId (path : String) (method : Method) :
    (fallbackId path method).toList = method.name.toList ++ '_' :: idPath path := by
  rw [fallbackId, idPath]
  split
  case h_1 rest hpath => simp [hpath, dropStart?, or_assoc]
  case h_2 _ hslash =>
    have hdrop : dropStart? ['/'] path.toList = none := by
      cases hpath : path.toList with
      | nil => rfl
      | cons c rest =>
          have hc : c ≠ '/' := fun hc => hslash rest (by rw [hpath, hc])
          rw [dropStart?, if_neg hc.symm]
    simp [hdrop, or_assoc]

/-- **Derived ids are the same exactly if the methods are and the paths leave the same.** -/
theorem fallbackId_eq_iff {path path' : String} {method method' : Method} :
    fallbackId path method = fallbackId path' method' ↔
      method = method' ∧ idPath path = idPath path' := by
  have hmethod : ∀ m : Method, '_' ∉ m.name.toList := fun m hmem =>
    absurd (Method.isLetter_of_mem_name hmem) (by decide)
  rw [← String.toList_inj, toList_fallbackId, toList_fallbackId]
  constructor
  · intro h
    obtain ⟨hname, hpath⟩ := append_cons_inj_first (hmethod _) (hmethod _) h
    exact ⟨Method.name_injective (String.toList_inj.mp hname), hpath⟩
  · rintro ⟨rfl, hpath⟩
    rw [hpath]

/-! ## Names of files

An id names a file if each of its characters may stand in a name and it is not a dot or two.  A
derived id begins with the name of a method, so only its characters matter. -/

/-- Whether a character of a path may stand in an id that is the name of a file. -/
def IsIdChar (c : Char) : Prop := c ≠ '\\' ∧ isControl c = false

/-- Whether a character may stand in the name of a file. -/
def IsFileChar (c : Char) : Prop := c ≠ '/' ∧ IsIdChar c

lemma isFileChar_of_isLetter {c : Char} (h : isLetter c = true) : IsFileChar c := by
  refine ⟨?_, ?_, ?_⟩
  · rintro rfl
    exact absurd h (by decide)
  · rintro rfl
    exact absurd h (by decide)
  · simp only [isLetter, Bool.or_eq_true, Bool.and_eq_true, decide_eq_true_eq, Char.le_def,
      UInt32.le_iff_toNat_le] at h
    change 97 ≤ c.toNat ∧ c.toNat ≤ 122 ∨ 65 ≤ c.toNat ∧ c.toNat ≤ 90 at h
    rw [isControl]
    simp only [Bool.or_eq_false_iff, Bool.and_eq_false_iff, decide_eq_false_iff_not]
    omega

lemma isPlainFileName_iff {name : String} (hempty : name.toList ≠ [])
    (hdot : ∃ c ∈ name.toList, c ≠ '.') :
    isPlainFileName name = true ↔ ∀ c ∈ name.toList, IsFileChar c := by
  have hone : name.toList ≠ ['.'] := by
    intro h
    simp [h] at hdot
  have htwo : name.toList ≠ ['.', '.'] := by
    intro h
    simp [h] at hdot
  simp [isPlainFileName, hempty, hone, htwo, IsFileChar, IsIdChar, and_assoc]

/-- What is left of a path may stand in the name of a file if the path may. -/
lemma forall_idPath_iff (path : String) :
    (∀ c ∈ idPath path, IsFileChar c) ↔ ∀ c ∈ path.toList, IsIdChar c := by
  have hchar : ∀ c, IsFileChar (if c ∈ ['/', '\x7b', '\x7d'] then '_' else c) ↔ IsIdChar c := by
    intro c
    by_cases hc : c ∈ ['/', '\x7b', '\x7d']
    · rw [if_pos hc]
      have hunderscore : IsFileChar '_' := by
        refine ⟨?_, ?_, ?_⟩ <;> decide
      have hshown : IsIdChar c := by
        simp only [List.mem_cons, List.not_mem_nil, or_false] at hc
        rcases hc with rfl | rfl | rfl <;> refine ⟨?_, ?_⟩ <;> decide
      exact iff_of_true hunderscore hshown
    · rw [if_neg hc]
      have hslash : c ≠ '/' := by
        rintro rfl
        exact hc List.mem_cons_self
      exact and_iff_right hslash
  rw [idPath, List.forall_mem_map]
  simp only [hchar]
  cases hdrop : dropStart? ['/'] path.toList with
  | none => rfl
  | some rest =>
      have hslash : IsIdChar '/' := by refine ⟨?_, ?_⟩ <;> decide
      rw [eq_append_of_dropStart? hdrop, List.singleton_append, List.forall_mem_cons]
      exact (and_iff_right hslash).symm

/-- **A derived id is the name of a file** exactly if its path holds no backslash and no control
character. -/
theorem isPlainFileName_fallbackId {path : String} {method : Method} :
    isPlainFileName (fallbackId path method) = true ↔ ∀ c ∈ path.toList, IsIdChar c := by
  have hmethod : ∀ c ∈ method.name.toList, IsFileChar c := fun c hc =>
    isFileChar_of_isLetter (Method.isLetter_of_mem_name hc)
  have hunderscore : IsFileChar '_' := by refine ⟨?_, ?_, ?_⟩ <;> decide
  rw [isPlainFileName_iff (by simp [toList_fallbackId])
      ⟨'_', by simp [toList_fallbackId], by decide⟩,
    toList_fallbackId, List.forall_mem_append, List.forall_mem_cons, forall_idPath_iff,
    and_iff_right hmethod, and_iff_right hunderscore]

/-! ## Lists of operations

The ids of a list of operations are checked in order, and the check fails exactly if one is no name
of a file or two are the same.  Both have been told from methods and paths by now. -/

/-- The handlers of a list of operations. -/
def handlersOf (defaults : Defaults) (operations : List (String × Method × Operation)) :
    List Handler :=
  operations.filterMap fun (path, method, operation) =>
    Handler.ofOperation? defaults path method operation

/-- The ids of handlers, one for each operation with steps. -/
lemma ids_handlersOf (defaults : Defaults) (operations : List (String × Method × Operation)) :
    (handlersOf defaults operations).map (·.id) =
      (operations.filter fun o => o.2.2.steps.isSome).map fun o =>
        handlerId o.2.2.id o.1 o.2.1 := by
  induction operations with
  | nil => rfl
  | cons o operations ih =>
      obtain ⟨path, method, operation⟩ := o
      cases hsteps : operation.steps with
      | none =>
          simpa [handlersOf, Handler.ofOperation?, hsteps] using ih
      | some entries => simpa [handlersOf, Handler.ofOperation?, hsteps] using ih

/-- A list repeats a key exactly if it has two elements with the same key, one behind the other. -/
lemma not_nodup_map_iff {α κ : Type} {key : α → κ} {s : List α} :
    ¬(s.map key).Nodup ↔ ∃ a b, [a, b].Sublist s ∧ key a = key b := by
  rw [List.Nodup, List.pairwise_map, List.pairwise_iff_forall_sublist]
  push Not
  rfl

/-- **Which derived ids are refused.**  A derived id is the name of a file exactly if its path holds
no backslash and no control character, and two are the same exactly if the methods are and the paths
leave the same.  So for operations without ids of their own, whose paths hold no such character, the
check on ids fails exactly if two operations with steps have the same method and paths that leave
the same. -/
theorem derived_ids_clash_iff :
    (∀ path method, isPlainFileName (fallbackId path method) = true ↔
      ∀ c ∈ path.toList, IsIdChar c) ∧
    (∀ path path' method method', fallbackId path method = fallbackId path' method' ↔
      method = method' ∧ idPath path = idPath path') ∧
    ∀ defaults operations, (∀ o ∈ operations, o.2.2.id = none ∧ ∀ c ∈ o.1.toList, IsIdChar c) →
      ((∃ e, checkIds (handlersOf defaults operations) = .error e) ↔
        ∃ o o', [o, o'].Sublist (operations.filter fun o => o.2.2.steps.isSome) ∧
          o.2.1 = o'.2.1 ∧ idPath o.1 = idPath o'.1) := by
  refine ⟨fun _ _ => isPlainFileName_fallbackId, fun _ _ _ _ => fallbackId_eq_iff,
    fun defaults operations hderived => ?_⟩
  have hfails : (∃ e, checkIds (handlersOf defaults operations) = .error e) ↔
      ¬checkIds (handlersOf defaults operations) = .ok () := by
    cases checkIds (handlersOf defaults operations) <;> simp
  have hids : (handlersOf defaults operations).map (·.id) =
      (operations.filter fun o => o.2.2.steps.isSome).map fun o => fallbackId o.1 o.2.1 := by
    rw [ids_handlersOf]
    refine List.map_congr_left fun o ho => ?_
    rw [handlerId, (hderived o (List.mem_of_mem_filter ho)).1, Option.getD_none]
  have hplain : ∀ h ∈ handlersOf defaults operations, isPlainFileName h.id = true := by
    intro h hh
    have hid : h.id ∈ (handlersOf defaults operations).map (·.id) := List.mem_map_of_mem hh
    rw [hids] at hid
    obtain ⟨o, ho, hid⟩ := List.mem_map.mp hid
    rw [← hid]
    exact isPlainFileName_fallbackId.mpr (hderived o (List.mem_of_mem_filter ho)).2
  rw [hfails, checkIds_eq_ok_iff, and_iff_right hplain, hids, not_nodup_map_iff]
  simp only [fallbackId_eq_iff]

/-- Operations of which the first and the last have paths that leave the same. -/
def lookalikes : List (String × Method × Operation) :=
  [("/users/\x7bid\x7d", .get, ⟨none, none, some [], none⟩),
    ("/users", .get, ⟨none, none, some [], none⟩),
    ("users/_id_", .get, ⟨none, none, some [], none⟩)]

theorem derived_ids_clash_iff_lookalikes :
    (∀ o ∈ lookalikes, o.2.2.id = none ∧ ∀ c ∈ o.1.toList, IsIdChar c) ∧
    ∃ e, checkIds (handlersOf default lookalikes) = .error e := by
  have hderived : ∀ o ∈ lookalikes, o.2.2.id = none ∧ ∀ c ∈ o.1.toList, IsIdChar c := by
    have hplain : ∀ o ∈ lookalikes, isPlainFileName (fallbackId o.1 o.2.1) = true := by
      decide +kernel
    have hnone : ∀ o ∈ lookalikes, o.2.2.id = none := by decide
    exact fun o ho => ⟨hnone o ho, isPlainFileName_fallbackId.mp (hplain o ho)⟩
  refine ⟨hderived, (derived_ids_clash_iff.2.2 default lookalikes hderived).mpr ?_⟩
  refine ⟨("/users/\x7bid\x7d", .get, ⟨none, none, some [], none⟩),
    ("users/_id_", .get, ⟨none, none, some [], none⟩), ?_, rfl, by decide +kernel⟩
  exact .cons_cons _ (.cons _ (.cons_cons _ .slnil))

end WorkerGen
