import Mathlib
import WorkerGen.Compile.State

/-!
# What a successful compilation has checked

A compilation that succeeds has the handlers and the routing table of its description
(`compiled_and_errors_of_runPhases`), and has checked them: the ids are plain and distinct
(`checkIds_eq_ok_iff`), and every step that acts on a resource is bound (`Compiled.isBound`),
whether or not there is a manifest.

`Compiled` is what other modules take from a compilation.  The phases run one after another, and the
first that fails ends them, so a success is inverted phase by phase here and nowhere else.
-/

namespace WorkerGen

/-! ## Ids

The check goes through the handlers with those that it has passed, and passes all of them just if no
id is at fault. -/

lemma checkIdsAfter_eq_ok_iff : ∀ {earlier handlers : List Handler},
    checkIdsAfter earlier handlers = .ok () ↔
      (∀ h ∈ handlers, isPlainFileName h.id = true) ∧
      (∀ h ∈ handlers, ∀ e ∈ earlier, e.id ≠ h.id) ∧ (handlers.map (·.id)).Nodup
  | earlier, [] => by simp [checkIdsAfter]
  | earlier, h :: rest => by
      rw [checkIdsAfter]
      by_cases hplain : isPlainFileName h.id = true
      · cases hfirst : earlier.find? (·.id == h.id) with
        | some first =>
            have hmem := List.mem_of_find?_eq_some hfirst
            have hid : first.id = h.id := by simpa using List.find?_some hfirst
            simp only [hplain, Bool.not_true, Bool.false_eq_true, if_false, reduceCtorEq, false_iff]
            rintro ⟨-, hother, -⟩
            exact hother h List.mem_cons_self first hmem hid
        | none =>
            have hnew : ∀ e ∈ earlier, e.id ≠ h.id := by simpa using List.find?_eq_none.mp hfirst
            simp only [hplain, Bool.not_true, Bool.false_eq_true, if_false,
              checkIdsAfter_eq_ok_iff, List.forall_mem_cons, List.map_cons, List.nodup_cons,
              List.mem_map, not_exists, not_and]
            constructor
            · rintro ⟨hrest, hother, hnodup⟩
              refine ⟨⟨trivial, hrest⟩, ⟨hnew, fun g hg => (hother g hg).2⟩, ?_, hnodup⟩
              exact fun g hg hid => (hother g hg).1 hid.symm
            · rintro ⟨⟨-, hrest⟩, ⟨-, hother⟩, hid, hnodup⟩
              exact ⟨hrest, fun g hg => ⟨fun heq => hid g hg heq.symm, hother g hg⟩, hnodup⟩
      · simp [hplain]

/-- **Ids are accepted exactly if they are plain and no two are the same.** -/
theorem checkIds_eq_ok_iff {handlers : List Handler} : checkIds handlers = .ok () ↔
    (∀ h ∈ handlers, isPlainFileName h.id = true) ∧ (handlers.map (·.id)).Nodup := by
  simp [checkIds, checkIdsAfter_eq_ok_iff]

/-! ## Bound steps

A step that is not bound gives a reference without a binding.  Such a reference fails a compilation,
with and without a manifest, so that no handler is written with a binding missing. -/

/-- Whether a step has the binding that it needs. -/
def Step.isBound (s : Step) : Bool := s.action.resource?.isNone || s.binding.isSome

/-- Whether all steps of a handler have the bindings that they need. -/
def Handler.isBound (h : Handler) : Bool := h.steps.all Step.isBound

/-- A step without the binding that it needs is among the references. -/
lemma exists_reference_of_not_isBound {h : Handler} (hbound : h.isBound = false) :
    ∃ r ∈ h.references, r.binding = none := by
  obtain ⟨step, hstep, hneeds⟩ := List.all_eq_false.mp hbound
  simp only [Step.isBound, Bool.or_eq_true, not_or, Option.isNone_iff_eq_none,
    Option.not_isSome_iff_eq_none] at hneeds
  obtain ⟨hresource, hbinding⟩ := hneeds
  obtain ⟨resource, hresource⟩ := Option.ne_none_iff_exists'.mp hresource
  obtain ⟨index, hindex, hget⟩ := List.mem_iff_getElem.mp hstep
  have hmem : (index, step, resource) ∈ h.resourceSteps := by
    rw [Handler.resourceSteps, List.mem_filterMap]
    exact ⟨(index, step), List.mem_mapIdx.mpr ⟨index, hindex, by rw [hget]⟩, by simp [hresource]⟩
  exact ⟨_, List.mem_map.mpr ⟨_, hmem, rfl⟩, by simp [hbinding]⟩

lemma isResolved_of_none {m : Manifest} {r : Reference} (h : r.binding = none) :
    r.isResolved m = false := by
  simp [Reference.isResolved, h]

/-- A reference without a binding fails a compilation, with and without a manifest. -/
lemma mem_fatalReferences (declared : Bool) {handlers : List Handler} (m : Manifest) {h : Handler}
    {r : Reference} (hh : h ∈ handlers) (hr : r ∈ h.references) (hnone : r.binding = none) :
    r ∈ Phase.fatalReferences declared (unresolvedReferences handlers m) := by
  have hmem : r ∈ unresolvedReferences handlers m := by
    rw [unresolvedReferences, List.mem_filter, List.mem_flatMap]
    exact ⟨⟨h, hh, hr⟩, by rw [isResolved_of_none hnone]; rfl⟩
  cases declared with
  | true => exact hmem
  | false => exact List.mem_filter.mpr ⟨hmem, by rw [hnone]; rfl⟩

lemma isBound_of_fatalReferences {declared : Bool} {handlers : List Handler} {m : Manifest}
    (h : Phase.fatalReferences declared (unresolvedReferences handlers m) = []) :
    ∀ handler ∈ handlers, handler.isBound = true := by
  intro handler hmem
  by_contra hbound
  obtain ⟨r, hr, hnone⟩ := exists_reference_of_not_isBound (Bool.eq_false_of_not_eq_true hbound)
  have hfatal := mem_fatalReferences declared m hmem hr hnone
  rw [h] at hfatal
  exact List.not_mem_nil hfatal

/-! ## Successful compilations -/

lemma seqRight_eq_ok {x y : Except CompileError Unit} :
    x *> y = .ok () ↔ x = .ok () ∧ y = .ok () := by
  cases x <;> cases y <;> simp [SeqRight.seqRight, Except.bind]

lemma report_report (c : Compilation) (first second : List Diagnostic) :
    (c.report first).report second = c.report (first ++ second) := by
  simp [Compilation.report]

/-- A validation that succeeds has passed all checks and has only added reports, and no error has
been reported up to its end. -/
lemma validateHandlers_eq_none {lints : List Lint} {c c' : Compilation} {handlers : List Handler}
    (h : Phase.validateHandlers lints c handlers = (c', none)) :
    checkIds handlers = .ok () ∧ checkResultNames handlers = .ok () ∧
      Phase.fatalReferences c.declared (unresolvedReferences handlers c.config.bindings) = [] ∧
      (∃ reports, c' = c.report reports) ∧ c'.errors = [] := by
  rw [Phase.validateHandlers] at h
  split at h
  case h_1 => exact absurd (Prod.mk.inj h).2 (by simp)
  case h_2 hchecks =>
    obtain ⟨hids, hnames⟩ := seqRight_eq_ok.mp hchecks
    dsimp only at h
    split at h
    case h_1 => exact absurd (Prod.mk.inj h).2 (by simp)
    case h_2 hfatal =>
      split_ifs at h with herrors
      · obtain ⟨hreports, -⟩ := Prod.mk.inj h
        rw [hreports, List.isEmpty_iff] at herrors
        rw [report_report] at hreports
        exact ⟨hids, hnames, hfatal, ⟨_, hreports.symm⟩, herrors⟩
      · exact absurd (Prod.mk.inj h).2 (by simp)

namespace Compilation

/-- What a compilation of some inputs that succeeds has made and checked. -/
structure Compiled (inputs : Config) (declared : Bool) (c : Compilation) : Prop where
  config : c.config = inputs
  handlers : c.handlers = some (Handler.ofApi inputs.api)
  routes : c.routes = some (Route.table inputs.api (Handler.ofApi inputs.api))
  ids : checkIds (Handler.ofApi inputs.api) = .ok ()
  names : checkResultNames (Handler.ofApi inputs.api) = .ok ()
  references : Phase.fatalReferences declared
    (unresolvedReferences (Handler.ofApi inputs.api) inputs.bindings) = []

/-- **A compilation that succeeds has the handlers and routes of its description, checked**,
whatever has been reported before it, and has no error among its reports. -/
theorem compiled_and_errors_of_runPhases {c₀ c : Compilation} {lints : List Lint}
    (h : c₀.runPhases (phases lints) = .ok c) :
    Compiled c₀.config c₀.declared c ∧ c.errors = [] := by
  simp only [phases, runPhases, Phase.run] at h
  split at h
  case h_1 => exact absurd h (by simp)
  case h_2 c' hvalidate =>
    obtain ⟨hids, hnames, hfatal, ⟨reports, rfl⟩, herrors⟩ := validateHandlers_eq_none hvalidate
    simp only [report, Except.ok.injEq] at h
    subst h
    exact ⟨⟨rfl, rfl, rfl, hids, hnames, hfatal⟩, herrors⟩

theorem compiled_of_runPhases {inputs : Config} {declared : Bool} {lints : List Lint}
    {c : Compilation} (h : ((new inputs).declare declared).runPhases (phases lints) = .ok c) :
    Compiled inputs declared c :=
  (compiled_and_errors_of_runPhases h).1

variable {inputs : Config} {declared : Bool} {c : Compilation}

theorem Compiled.isBound (h : Compiled inputs declared c) :
    ∀ handler ∈ Handler.ofApi inputs.api, handler.isBound = true :=
  isBound_of_fatalReferences h.references

theorem Compiled.isPlainFileName (h : Compiled inputs declared c) :
    ∀ handler ∈ Handler.ofApi inputs.api, WorkerGen.isPlainFileName handler.id = true :=
  (checkIds_eq_ok_iff.mp h.ids).1

theorem Compiled.nodup_ids (h : Compiled inputs declared c) :
    ((Handler.ofApi inputs.api).map (·.id)).Nodup :=
  (checkIds_eq_ok_iff.mp h.ids).2

end Compilation

end WorkerGen
