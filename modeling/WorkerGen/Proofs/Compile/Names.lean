import Mathlib
import WorkerGen.Proofs.Compile.Success
import WorkerGen.Proofs.FirstFault

/-!
# Which names are reported

The checks on ids and on result names end at the first violation.  Here it is said which one that
is, without the loops: `IdFault` and `NameFault` are what can be wrong with a handler or a step
behind others, and each check reports the first such fault (`checkIds_eq_error_iff`,
`checkResultNames_eq_error_iff`) or there is none (`checkIds_eq_ok_iff`,
`checkResultNames_eq_ok_iff_areNamed`).

A check remembers what it has passed in reverse, newest first.  Up to there nothing is repeated, so
the newest with an id or a name is also the earliest (`find?_reverse`, `lookup_numbered`).  This is
what the induction over the handlers, or over the steps of one, carries along: what has been passed
has no fault, and what is remembered of it is in order.

A step without a name of its own gets `step` and its position.  Another step may be given that name,
in front or behind: `TakesGenerated.firstFault`.  All of this together is `checks_report_first`.
-/

namespace WorkerGen

/-! ## Ids

An id that is not plain is reported without looking for another one like it.  A plain one is
compared with those before it, and the report names the earlier operation as well. -/

/-- What is wrong with the id of a handler that stands behind others: it is not plain, or else the
earliest of the others that has the same id. -/
inductive IdFault (before : List Handler) (h : Handler) : CompileError → Prop
  | notPlain (hplain : isPlainFileName h.id = false) :
      IdFault before h (.invalidHandlerId h.id h.location)
  | repeated {first : Handler} (plain : isPlainFileName h.id = true)
      (earliest : before.find? (·.id = h.id) = some first) :
      IdFault before h (.duplicateHandlerId h.id first.location h.location)

section
variable {before : List Handler} {h : Handler} {e : CompileError}

lemma idFault_of_notPlain (hplain : isPlainFileName h.id = false) :
    IdFault before h e ↔ e = .invalidHandlerId h.id h.location := by
  constructor
  · intro hfault
    cases hfault with
    | notPlain => rfl
    | repeated plain => simp [hplain] at plain
  · rintro rfl
    exact .notPlain hplain

lemma idFault_of_plain (hplain : isPlainFileName h.id = true) : IdFault before h e ↔
    ∃ first, before.find? (·.id = h.id) = some first ∧
      e = .duplicateHandlerId h.id first.location h.location := by
  constructor
  · intro hfault
    cases hfault with
    | notPlain hnot => simp [hplain] at hnot
    | repeated _ earliest => exact ⟨_, earliest, rfl⟩
  · rintro ⟨first, earliest, rfl⟩
    exact .repeated hplain earliest

end

/-- Among distinct keys, what is found under a key is the one element that has it. -/
lemma find?_eq_some_iff {α κ : Type} [DecidableEq κ] {key : α → κ} {s : List α}
    (hnodup : (s.map key).Nodup) {k : κ} {a : α} :
    s.find? (key · = k) = some a ↔ a ∈ s ∧ key a = k := by
  constructor
  · intro hfind
    exact ⟨List.mem_of_find?_eq_some hfind, by simpa using List.find?_some hfind⟩
  · rintro ⟨hmem, rfl⟩
    cases hfind : s.find? (key · = key a) with
    | none =>
        have hnone := List.find?_eq_none.mp hfind a hmem
        simp at hnone
    | some b =>
        have hb := List.mem_of_find?_eq_some hfind
        have hkey : key b = key a := by simpa using List.find?_some hfind
        rw [List.inj_on_of_nodup_map hnodup hb hmem hkey]

/-- Among distinct keys it does not matter from which end one is looked for. -/
lemma find?_reverse {α κ : Type} [DecidableEq κ] {key : α → κ} {s : List α}
    (hnodup : (s.map key).Nodup) (k : κ) :
    s.reverse.find? (key · = k) = s.find? (key · = k) := by
  have hnodup' : (s.reverse.map key).Nodup := by
    rw [List.map_reverse]
    exact List.nodup_reverse.mpr hnodup
  ext a
  rw [find?_eq_some_iff hnodup', find?_eq_some_iff hnodup, List.mem_reverse]

/-- The handlers that are still to be checked, behind those that have passed. -/
lemma checkIdsAfter_eq_error_iff {e : CompileError} (handlers before : List Handler)
    (hnodup : (before.map (·.id)).Nodup) : checkIdsAfter before.reverse handlers = .error e ↔
      FirstFault (fun more => IdFault (before ++ more)) handlers e := by
  induction handlers generalizing before with
  | nil => simp [checkIdsAfter, not_firstFault_nil]
  | cons h rest ih =>
      rw [checkIdsAfter, firstFault_cons, List.append_nil]
      by_cases hplain : isPlainFileName h.id = true
      · have hfind : before.reverse.find? (·.id == h.id) = before.find? (·.id = h.id) :=
          find?_reverse hnodup h.id
        simp only [hplain, hfind, Bool.not_true, Bool.false_eq_true, if_false,
          idFault_of_plain hplain]
        cases hfirst : before.find? (·.id = h.id) with
        | some first => simp [eq_comm]
        | none =>
            have hnew : ∀ b ∈ before, b.id ≠ h.id := by simpa using hfirst
            have hnodup' := nodup_map_append_singleton.mpr ⟨hnodup, hnew⟩
            simpa using ih (before ++ [h]) hnodup'
      · rw [Bool.not_eq_true] at hplain
        simp [hplain, idFault_of_notPlain hplain, eq_comm]

/-- **Ids that are not accepted**: the first handler at fault is reported. -/
theorem checkIds_eq_error_iff {handlers : List Handler} {e : CompileError} :
    checkIds handlers = .error e ↔ FirstFault IdFault handlers e :=
  checkIdsAfter_eq_error_iff handlers [] (by simp)

/-! ## Result names

Names are compared within a handler only, and handlers are checked in their order.  What is reported
has the position of the step and that of the earlier one with its name, counted from one. -/

/-- A name under which a result may be kept: not empty, and without control characters. -/
def IsResultName (name : String) : Prop :=
  name ≠ "" ∧ ∀ c ∈ name.toList, Text.isControl c = false

lemma isResultName_iff {name : String} : isResultName name = true ↔ IsResultName name := by
  simp [isResultName, IsResultName]

/-- What is wrong with the name of a step that stands behind others in its handler: it is no name
for a result, or else the earliest of the others has it.  Steps are counted from one. -/
inductive NameFault (handler : String) (before : List Step) (s : Step) : CompileError → Prop
  | notName (hname : ¬IsResultName s.name) :
      NameFault handler before s (.invalidResultName handler s.name)
  | repeated {first : Nat} (isName : IsResultName s.name)
      (earliest : before.findIdx? (·.name = s.name) = some first) :
      NameFault handler before s
        (.duplicateResultName handler s.name (first + 1) (before.length + 1))

section
variable {handler : String} {before : List Step} {s : Step} {e : CompileError}

lemma nameFault_of_notName (hname : ¬IsResultName s.name) :
    NameFault handler before s e ↔ e = .invalidResultName handler s.name := by
  constructor
  · intro hfault
    cases hfault with
    | notName => rfl
    | repeated isName => exact absurd isName hname
  · rintro rfl
    exact .notName hname

lemma nameFault_of_isName (hname : IsResultName s.name) : NameFault handler before s e ↔
    ∃ first, before.findIdx? (·.name = s.name) = some first ∧
      e = .duplicateResultName handler s.name (first + 1) (before.length + 1) := by
  constructor
  · intro hfault
    cases hfault with
    | notName hnot => exact absurd hname hnot
    | repeated _ earliest => exact ⟨_, earliest, rfl⟩
  · rintro ⟨first, earliest, rfl⟩
    exact .repeated hname earliest

end

namespace Handler

/-- Steps with their positions, as the check remembers them. -/
def numbered (before : List Step) : List (String × Nat) :=
  (before.mapIdx fun index s => (s.name, index + 1)).reverse

lemma length_numbered (before : List Step) : (numbered before).length = before.length := by
  simp [numbered]

lemma numbered_append (before : List Step) (s : Step) :
    numbered (before ++ [s]) = (s.name, before.length + 1) :: numbered before := by
  simp [numbered, List.mapIdx_append]

/-- Among distinct names, the position that is remembered is that of the earliest step. -/
lemma lookup_numbered {before : List Step} (hnodup : (before.map (·.name)).Nodup) (name : String) :
    (numbered before).lookup name = (before.findIdx? (·.name = name)).map (· + 1) := by
  induction before using List.reverseRecOn with
  | nil => rfl
  | append_singleton before s ih =>
      obtain ⟨hbefore, hnew⟩ := nodup_map_append_singleton.mp hnodup
      rw [numbered_append, List.lookup_cons, ih hbefore, List.findIdx?_append]
      by_cases hs : s.name = name
      · subst hs
        have hnone : before.findIdx? (·.name = s.name) = none := by
          simpa using hnew
        simp [hnone]
      · have hs' : (name == s.name) = false := by simpa using Ne.symm hs
        simp [hs, hs']

lemma checkStepsAfter_eq_error_iff {e : CompileError} (id : String) (steps before : List Step)
    (hnodup : (before.map (·.name)).Nodup) :
    checkStepsAfter id (numbered before) steps = .error e ↔
      FirstFault (fun more => NameFault id (before ++ more)) steps e := by
  induction steps generalizing before with
  | nil => simp [checkStepsAfter, not_firstFault_nil]
  | cons s rest ih =>
      rw [checkStepsAfter, firstFault_cons, List.append_nil]
      by_cases hname : IsResultName s.name
      · simp only [isResultName_iff.mpr hname, Bool.not_true, Bool.false_eq_true, if_false,
          lookup_numbered hnodup, length_numbered, nameFault_of_isName hname]
        cases hfirst : before.findIdx? (·.name = s.name) with
        | some first => simp [eq_comm]
        | none =>
            have hnew : ∀ b ∈ before, b.name ≠ s.name := by simpa using hfirst
            have hnodup' := nodup_map_append_singleton.mpr ⟨hnodup, hnew⟩
            simpa [numbered_append] using ih (before ++ [s]) hnodup'
      · have hnot : isResultName s.name = false :=
          Bool.eq_false_of_not_eq_true (mt isResultName_iff.mp hname)
        simp [hnot, nameFault_of_notName hname, eq_comm]

/-- **Names of steps that are not accepted**: the first step at fault is reported. -/
theorem checkSteps_eq_error_iff {h : Handler} {e : CompileError} :
    h.checkSteps = .error e ↔ FirstFault (NameFault h.id) h.steps e :=
  checkStepsAfter_eq_error_iff h.id h.steps [] (by simp)

end Handler

/-! ### All steps of all handlers

The check on a handler begins anew, so handlers are judged one by one and the first that fails is
reported. -/

/-- Whether every step has a name for its result that no other of the steps has. -/
def AreNamed (steps : List Step) : Prop :=
  (∀ s ∈ steps, IsResultName s.name) ∧ (steps.map (·.name)).Nodup

lemma index_unique {steps : List Step} (hdistinct : (steps.map (·.name)).Nodup) {i j : Nat}
    {s t : Step} (hs : steps[i]? = some s) (ht : steps[j]? = some t) (hname : s.name = t.name) :
    i = j := by
  obtain ⟨hi, -⟩ := List.getElem?_eq_some_iff.mp hs
  rw [← List.getElem?_inj (by simpa using hi) hdistinct]
  simp [hs, ht, hname]

lemma findIdx?_name_isSome_iff {before : List Step} {name : String} :
    (before.findIdx? (·.name = name)).isSome ↔ ∃ b ∈ before, b.name = name := by
  simp

lemma areNamed_iff (handler : String) {steps : List Step} : AreNamed steps ↔
    ∀ before s after, steps = before ++ s :: after → ∀ e, ¬NameFault handler before s e := by
  rw [AreNamed, nodup_map_iff]
  constructor
  · rintro ⟨hnames, hdistinct⟩ before s after hsplit e hfault
    rw [nameFault_of_isName (hnames s (by simp [hsplit]))] at hfault
    obtain ⟨first, hfirst, -⟩ := hfault
    obtain ⟨b, hb, hrepeated⟩ := findIdx?_name_isSome_iff.mp (Option.isSome_of_eq_some hfirst)
    exact hdistinct before s after hsplit b hb hrepeated
  · intro hfaultless
    have hnames : ∀ s ∈ steps, IsResultName s.name := by
      intro s hs
      by_contra hname
      obtain ⟨before, after, hsplit⟩ := List.append_of_mem hs
      exact hfaultless before s after hsplit _ (.notName hname)
    refine ⟨hnames, ?_⟩
    intro before s after hsplit b hb hrepeated
    have hname : IsResultName s.name := hnames s (by simp [hsplit])
    obtain ⟨first, hfirst⟩ :=
      Option.isSome_iff_exists.mp (findIdx?_name_isSome_iff.mpr ⟨b, hb, hrepeated⟩)
    exact hfaultless before s after hsplit _ (.repeated hname hfirst)

lemma Handler.checkSteps_eq_ok_iff {h : Handler} : h.checkSteps = .ok () ↔ AreNamed h.steps := by
  have hnone : h.checkSteps = .ok () ↔ ∀ e, ¬FirstFault (NameFault h.id) h.steps e := by
    simp only [← Handler.checkSteps_eq_error_iff]
    cases h.checkSteps <;> simp
  rw [hnone, forall_not_firstFault_iff, areNamed_iff h.id]

lemma checkResultNames_eq_ok_iff : ∀ {handlers : List Handler},
    checkResultNames handlers = .ok () ↔ ∀ h ∈ handlers, h.checkSteps = .ok ()
  | [] => iff_of_true rfl (by simp)
  | h :: rest => by
      have hcons : checkResultNames (h :: rest) = (do h.checkSteps; checkResultNames rest) := rfl
      rw [hcons, List.forall_mem_cons, ← checkResultNames_eq_ok_iff]
      cases h.checkSteps <;> simp [bind, Except.bind]

/-- **Result names are accepted exactly if they are names and no two steps of a handler have the
same.** -/
theorem checkResultNames_eq_ok_iff_areNamed {handlers : List Handler} :
    checkResultNames handlers = .ok () ↔ ∀ h ∈ handlers, AreNamed h.steps := by
  simp only [checkResultNames_eq_ok_iff, Handler.checkSteps_eq_ok_iff]

/-- **Result names that are not accepted**: the first step at fault of the first handler that has
one is reported. -/
theorem checkResultNames_eq_error_iff {handlers : List Handler} {e : CompileError} :
    checkResultNames handlers = .error e ↔
      FirstFault (fun _ h => FirstFault (NameFault h.id) h.steps) handlers e := by
  rw [checkResultNames, forM_eq_error_iff]
  exact firstFault_congr fun _ _ _ => Handler.checkSteps_eq_error_iff

/-! ## Generated names

Of the two steps that get one name the one behind is at fault, whichever of them was given it. -/

/-- The name of the step at an index that is not given one. -/
def generatedName (index : Nat) : String := "step" ++ toString (index + 1)

/-- Whether the entry at `i` is given the name that the entry at `j` gets, which has none. -/
structure TakesGenerated (entries : List StepEntry) (i j : Nat) : Prop where
  given : ∃ entry, entries[i]? = some entry ∧ entry.result = some (generatedName j)
  unnamed : ∃ entry, entries[j]? = some entry ∧ entry.result = none

lemma getElem?_stepsOf (defaults : Defaults) (entries : List StepEntry) (index : Nat) :
    (stepsOf defaults entries)[index]? =
      (entries[index]?).map fun entry => entry.toStep defaults index := by
  simp [stepsOf]

namespace TakesGenerated

variable {entries : List StepEntry} {i j : Nat} (h : TakesGenerated entries i j)
  (defaults : Defaults)

include h

lemma ne : i ≠ j := by
  rintro rfl
  obtain ⟨entry, hentry, hgiven⟩ := h.given
  obtain ⟨entry', hentry', hunnamed⟩ := h.unnamed
  rw [hentry] at hentry'
  obtain rfl := Option.some.inj hentry'
  simp [hgiven] at hunnamed

/-- Both steps have the name, whichever stands in front. -/
lemma exists_step {index : Nat} (hindex : index = i ∨ index = j) :
    ∃ s, (stepsOf defaults entries)[index]? = some s ∧ s.name = generatedName j := by
  rw [getElem?_stepsOf]
  rcases hindex with rfl | rfl
  · obtain ⟨entry, hentry, hgiven⟩ := h.given
    exact ⟨_, by rw [hentry, Option.map_some], by simp [StepEntry.toStep, hgiven]⟩
  · obtain ⟨entry, hentry, hunnamed⟩ := h.unnamed
    exact ⟨_, by rw [hentry, Option.map_some], by simp [StepEntry.toStep, hunnamed, generatedName]⟩

lemma areNotNamed : ¬AreNamed (stepsOf defaults entries) := by
  rintro ⟨-, hdistinct⟩
  obtain ⟨s, hs, hname⟩ := h.exists_step defaults (.inl rfl)
  obtain ⟨s', hs', hname'⟩ := h.exists_step defaults (.inr rfl)
  exact h.ne (index_unique hdistinct hs hs' (hname.trans hname'.symm))

/-- If nothing is wrong in front of the second of the two steps, it is at fault, and the first is
the one that it repeats. -/
lemma firstFault (handler : String)
    (hnamed : AreNamed ((stepsOf defaults entries).take (max i j))) :
    FirstFault (NameFault handler) (stepsOf defaults entries)
      (.duplicateResultName handler (generatedName j) (min i j + 1) (max i j + 1)) := by
  obtain ⟨s, hs, hname⟩ := h.exists_step defaults (max_choice i j)
  obtain ⟨first, hfirst, hfirstName⟩ := h.exists_step defaults (min_choice i j)
  have hlt : min i j < max i j := min_lt_max.mpr h.ne
  obtain ⟨hmax, hget⟩ := List.getElem?_eq_some_iff.mp hs
  set steps := stepsOf defaults entries
  set before := steps.take (max i j) with hbefore
  have hlength : before.length = max i j := by
    rw [hbefore, List.length_take]
    omega
  have hat : before[min i j]? = some first := by
    rw [hbefore, List.getElem?_take_of_lt hlt, hfirst]
  obtain ⟨hmin, hatMin⟩ := List.getElem?_eq_some_iff.mp hat
  have hearliest : before.findIdx? (·.name = s.name) = some (min i j) := by
    rw [List.findIdx?_eq_some_iff_getElem]
    refine ⟨hmin, by simp [hatMin, hfirstName, hname], ?_⟩
    intro k hk hsame
    have hk' : before[k]? = some before[k] := List.getElem?_eq_getElem (hk.trans hmin)
    have hsame' : before[k].name = first.name := by
      simpa [hname, hfirstName] using hsame
    have hkmin := index_unique hnamed.2 hk' hat hsame'
    omega
  have hisName : IsResultName s.name := by
    rw [hname, ← hfirstName]
    exact hnamed.1 first (List.mem_of_getElem? hat)
  have hfault : NameFault handler before s
      (.duplicateResultName handler s.name (min i j + 1) (before.length + 1)) :=
    .repeated hisName hearliest
  rw [hname, hlength] at hfault
  refine ⟨before, s, steps.drop (max i j + 1), ?_, hfault, (areNamed_iff handler).mp hnamed⟩
  rw [← hget, ← List.drop_eq_getElem_cons hmax, hbefore, List.take_append_drop]

end TakesGenerated

/-! ## What the checks report -/

/-- **What the checks on names report.**  Ids are accepted exactly if they are plain and distinct,
and else the first handler at fault is reported; result names are accepted exactly if they are names
and distinct in each handler, and else the first step at fault is.  This covers a step that is given
the name which another one gets without one: the later of the two is at fault, and it is reported if
nothing is wrong in front of it. -/
theorem checks_report_first (handlers : List Handler) :
    ((checkIds handlers = .ok () ↔
        (∀ h ∈ handlers, isPlainFileName h.id = true) ∧ (handlers.map (·.id)).Nodup) ∧
      ∀ e, checkIds handlers = .error e ↔ FirstFault IdFault handlers e) ∧
    ((checkResultNames handlers = .ok () ↔ ∀ h ∈ handlers, AreNamed h.steps) ∧
      ∀ e, checkResultNames handlers = .error e ↔
        FirstFault (fun _ h => FirstFault (NameFault h.id) h.steps) handlers e) ∧
    ∀ before h after defaults entries i j, handlers = before ++ h :: after →
      h.steps = stepsOf defaults entries → TakesGenerated entries i j →
        checkResultNames handlers ≠ .ok () ∧
        ((∀ b ∈ before, AreNamed b.steps) → AreNamed (h.steps.take (max i j)) →
          checkResultNames handlers = .error
            (.duplicateResultName h.id (generatedName j) (min i j + 1) (max i j + 1))) := by
  refine ⟨⟨checkIds_eq_ok_iff, fun _ => checkIds_eq_error_iff⟩,
    ⟨checkResultNames_eq_ok_iff_areNamed, fun _ => checkResultNames_eq_error_iff⟩, ?_⟩
  intro before h after defaults entries i j hsplit hsteps htakes
  constructor
  · intro hok
    have hnamed := checkResultNames_eq_ok_iff_areNamed.mp hok h (by simp [hsplit])
    exact htakes.areNotNamed defaults (hsteps ▸ hnamed)
  · intro hbefore hnamed
    rw [hsteps] at hnamed
    have hfault := htakes.firstFault defaults h.id hnamed
    rw [← hsteps] at hfault
    rw [checkResultNames_eq_error_iff]
    refine ⟨before, h, after, hsplit, hfault, ?_⟩
    intro earlier b later hearlier
    rw [forall_not_firstFault_iff, ← areNamed_iff]
    exact hbefore b (by simp [hearlier])

/-- Steps of which the first is given the name that the third gets without one. -/
def clashing : List StepEntry :=
  [⟨none, some "step3", .kvGet "a" .text⟩, ⟨none, none, .kvGet "b" .text⟩,
    ⟨none, none, .kvGet "c" .text⟩]

/-- The handler of an operation with these steps. -/
def clashingHandler : Handler := ⟨"a", .get, "/a", stepsOf default clashing, none, default⟩

/-- The third step is at fault, and the first is the one that it repeats. -/
theorem checks_report_first_clashing : TakesGenerated clashing 0 2 ∧
    AreNamed ((stepsOf default clashing).take 2) ∧
    checkResultNames [clashingHandler] = .error (.duplicateResultName "a" "step3" 1 3) := by
  have htakes : TakesGenerated clashing 0 2 := ⟨⟨_, rfl, rfl⟩, ⟨_, rfl, rfl⟩⟩
  have hchecked : Handler.checkSteps ⟨"a", .get, "/a", (stepsOf default clashing).take 2, none,
      default⟩ = .ok () := by decide +kernel
  have hnamed : AreNamed ((stepsOf default clashing).take 2) :=
    Handler.checkSteps_eq_ok_iff.mp hchecked
  have hfirst :=
    (checks_report_first [clashingHandler]).2.2 [] clashingHandler [] default clashing 0 2 rfl rfl
  exact ⟨htakes, hnamed, (hfirst htakes).2 (by simp) hnamed⟩

end WorkerGen
