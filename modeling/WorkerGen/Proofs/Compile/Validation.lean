import Mathlib
import WorkerGen.Proofs.Compile.Names

/-!
# What a validation decides

A validation checks ids, then result names, then references, and runs its lints last.  `IsValidated`
says for any handlers, manifest and lints what comes of it: when it passes, which failure wins,
which references a failure lists, and what is reported on the way (`isValidated_run`).

**References.**  What fails a validation and what is only reported are two selections from the
references of all steps, in the order of the handlers and of their steps (`fatalReferences_eq`,
`toleratedReferences_eq`).  With distinct ids and names each step has one reference
(`nodup_allReferences`), so no step is listed twice.

**Reports.**  Neither the warnings of a validation nor its lints report errors
(`isError_of_mem_warnings`, `isError_of_mem_lints`), so the errors that end it have been there
before.
-/

namespace WorkerGen

/-! ## References

A reference is made for a step that acts on a resource, with the id of its handler, its own name,
its class and its binding if it has one.  Whether it fails a validation depends on that and on the
manifest. -/

/-- The reference of a step, if it acts on a resource. -/
def Handler.reference? (h : Handler) (s : Step) : Option Reference :=
  s.action.resource?.map fun resource => ⟨h.id, s.name, resource, s.binding.map (·.name)⟩

/-- The references of all steps that act on a resource, in the order of the handlers and of their
steps. -/
def allReferences (handlers : List Handler) : List Reference :=
  handlers.flatMap fun h => h.steps.filterMap h.reference?

/-- Whether a reference names something that the manifest does not declare for its class. -/
def Reference.IsUndeclared (m : Manifest) (r : Reference) : Prop :=
  ∃ name ∈ r.binding, name ∉ m.names r.resource

instance (m : Manifest) (r : Reference) : Decidable (r.IsUndeclared m) :=
  inferInstanceAs (Decidable (∃ name ∈ r.binding, name ∉ m.names r.resource))

/-- The references that a validation fails for: those without a binding, and with a manifest also
those that it does not declare. -/
def rejectedReferences (declared : Bool) (m : Manifest) (handlers : List Handler) :
    List Reference :=
  (allReferences handlers).filter fun r => r.binding = none ∨ declared ∧ r.IsUndeclared m

/-- The references that a validation warns about: without a manifest, those that name something
undeclared. -/
def doubtedReferences (declared : Bool) (m : Manifest) (handlers : List Handler) :
    List Reference :=
  (allReferences handlers).filter fun r => declared = false ∧ r.IsUndeclared m

lemma Handler.references_eq (h : Handler) : h.references = h.steps.filterMap h.reference? := by
  have hsteps : (h.steps.mapIdx fun index s => (index, s)).map Prod.snd = h.steps := by
    simp [List.mapIdx_eq_zipIdx_map, Function.comp_def]
  conv_rhs => rw [← hsteps]
  rw [Handler.references, Handler.resourceSteps, List.map_filterMap, List.filterMap_map]
  refine List.filterMap_congr ?_
  rintro ⟨index, s⟩ -
  simp [Handler.reference?, Function.comp_def]

lemma Reference.isResolved_eq_false_iff {m : Manifest} {r : Reference} :
    r.isResolved m = false ↔ r.binding = none ∨ r.IsUndeclared m := by
  rw [Reference.isResolved, Reference.IsUndeclared]
  cases r.binding <;> simp [Manifest.declares]

lemma unresolvedReferences_eq (handlers : List Handler) (m : Manifest) :
    unresolvedReferences handlers m =
      (allReferences handlers).filter fun r => r.binding = none ∨ r.IsUndeclared m := by
  have hall : handlers.flatMap Handler.references = allReferences handlers :=
    List.flatMap_congr fun h _ => h.references_eq
  rw [unresolvedReferences, hall]
  refine List.filter_congr fun r _ => ?_
  have hiff := Reference.isResolved_eq_false_iff (m := m) (r := r)
  by_cases h : r.isResolved m = true <;> simp_all

lemma fatalReferences_eq (declared : Bool) (m : Manifest) (handlers : List Handler) :
    Phase.fatalReferences declared (unresolvedReferences handlers m) =
      rejectedReferences declared m handlers := by
  rw [unresolvedReferences_eq, Phase.fatalReferences, rejectedReferences]
  cases declared with
  | true => simp
  | false =>
      rw [if_neg Bool.false_ne_true, List.filter_filter]
      refine List.filter_congr fun r _ => ?_
      cases r.binding <;> simp

lemma toleratedReferences_eq (declared : Bool) (m : Manifest) (handlers : List Handler) :
    Phase.toleratedReferences declared (unresolvedReferences handlers m) =
      doubtedReferences declared m handlers := by
  rw [unresolvedReferences_eq, Phase.toleratedReferences, doubtedReferences]
  cases declared with
  | true => simp
  | false =>
      rw [if_neg Bool.false_ne_true, List.filter_filter]
      refine List.filter_congr fun r _ => ?_
      cases h : r.binding <;> simp [Reference.IsUndeclared, h]

/-- Whether all ids are plain and distinct. -/
def HaveIds (handlers : List Handler) : Prop :=
  (∀ h ∈ handlers, isPlainFileName h.id = true) ∧ (handlers.map (·.id)).Nodup

/-- Whether all result names are names, and distinct in each handler. -/
def HaveNames (handlers : List Handler) : Prop := ∀ h ∈ handlers, AreNamed h.steps

lemma step_filterMap_reference? (h : Handler) (steps : List Step) :
    ((steps.filterMap h.reference?).map (·.step)).Sublist (steps.map (·.name)) := by
  induction steps with
  | nil => simp
  | cons s steps ih =>
      cases hs : s.action.resource? with
      | none =>
          have hnone : h.reference? s = none := by simp [Handler.reference?, hs]
          rw [List.filterMap_cons_none hnone, List.map_cons]
          exact ih.cons _
      | some resource =>
          have hsome : h.reference? s = some ⟨h.id, s.name, resource, s.binding.map (·.name)⟩ := by
            simp [Handler.reference?, hs]
          rw [List.filterMap_cons_some hsome, List.map_cons, List.map_cons]
          exact ih.cons_cons _

lemma handler_of_mem_filterMap {h : Handler} {r : Reference}
    (hr : r ∈ h.steps.filterMap h.reference?) : r.handler = h.id := by
  obtain ⟨s, -, hs⟩ := List.mem_filterMap.mp hr
  obtain ⟨resource, -, rfl⟩ := Option.map_eq_some_iff.mp hs
  rfl

/-- **No step has two references**, told apart by the id of its handler and its name. -/
theorem nodup_allReferences {handlers : List Handler} (hids : HaveIds handlers)
    (hnames : HaveNames handlers) :
    ((allReferences handlers).map fun r => (r.handler, r.step)).Nodup := by
  rw [allReferences, List.map_flatMap, List.nodup_flatMap]
  constructor
  · intro h hh
    have hsteps : ((h.steps.filterMap h.reference?).map (·.step)).Nodup :=
      (hnames h hh).2.sublist (step_filterMap_reference? h h.steps)
    refine List.Nodup.of_map Prod.snd ?_
    rwa [List.map_map]
  · refine (List.pairwise_map.mp hids.2).imp fun {g h} hne => ?_
    rintro ⟨id, step⟩ hg hh
    obtain ⟨r, hr, hrid⟩ := List.mem_map.mp hg
    obtain ⟨r', hr', hrid'⟩ := List.mem_map.mp hh
    refine hne ?_
    rw [← handler_of_mem_filterMap hr, ← handler_of_mem_filterMap hr', (Prod.mk.inj hrid).1,
      (Prod.mk.inj hrid').1]

/-! ## Reports

A check that fails ends the validation with its cause and reports nothing.  What is reported on the
way are warnings and remarks. -/

/-- No lint reports an error. -/
lemma Lint.isError_of_mem_findings {config : Config} {handlers : List Handler} {d : Diagnostic} :
    ∀ {lint : Lint}, d ∈ lint.findings config handlers → d.isError = false
  | .emptySequence, h => by
      obtain ⟨handler, -, hsome⟩ := List.mem_filterMap.mp h
      rw [emptySequenceOf?, Option.ite_none_right_eq_some] at hsome
      rw [← Option.some_inj.mp hsome.2]
      rfl
  | .fetchBinding, h => by
      obtain ⟨⟨path, method, operation⟩, -, hmem⟩ := List.mem_flatMap.mp h
      obtain ⟨found, hfound, hsome⟩ := List.mem_filterMap.mp hmem
      obtain ⟨index, hindex, rfl⟩ := List.mem_mapIdx.mp hfound
      unfold fetchBindingOf? at hsome
      split at hsome
      · rw [← Option.some_inj.mp hsome]
        rfl
      · exact absurd hsome (by simp)
  | .unusedBinding, h => by
      obtain ⟨resource, -, hmem⟩ := List.mem_flatMap.mp h
      obtain ⟨name, -, rfl⟩ := List.mem_map.mp hmem
      rfl

lemma isError_of_mem_lints {lints : List Lint} {config : Config} {handlers : List Handler}
    {d : Diagnostic} (hd : d ∈ lints.flatMap (·.findings config handlers)) : d.isError = false := by
  obtain ⟨lint, -, hd⟩ := List.mem_flatMap.mp hd
  exact Lint.isError_of_mem_findings hd

lemma isError_of_mem_warnings {references : List Reference} {d : Diagnostic}
    (hd : d ∈ references.map Phase.referenceWarning) : d.isError = false := by
  obtain ⟨r, -, rfl⟩ := List.mem_map.mp hd
  rfl

/-- Reports that are no errors. -/
lemma Compilation.errors_report {c : Compilation} {reports : List Diagnostic}
    (h : ∀ d ∈ reports, d.isError = false) : (c.report reports).errors = c.errors := by
  have hnone : reports.filter (·.isError) = [] :=
    List.filter_eq_nil_iff.mpr fun d hd => by simp [h d hd]
  rw [errors, report, List.filter_append, hnone, List.append_nil, errors]

/-! ## Validations

There are four ways for a validation to end: with a fault in the ids, with one in the names, with
references that are rejected, or with the errors that are among the reports.  Each is ruled out in
turn, and what is left passes. -/

namespace Compilation

@[simp] lemma declared_report (c : Compilation) (reports : List Diagnostic) :
    (c.report reports).declared = c.declared := rfl

@[simp] lemma config_report (c : Compilation) (reports : List Diagnostic) :
    (c.report reports).config = c.config := rfl

/-- The warnings of a validation about references. -/
def doubts (c : Compilation) (handlers : List Handler) : List Diagnostic :=
  (doubtedReferences c.declared c.config.bindings handlers).map Phase.referenceWarning

end Compilation

section
variable {c : Compilation} {handlers : List Handler} (lints : List Lint)

/-- With ids and names in order, the references decide, and then the errors of before. -/
lemma validateHandlers_of_checked (hids : checkIds handlers = .ok ())
    (hnames : checkResultNames handlers = .ok ()) : Phase.validateHandlers lints c handlers =
      match rejectedReferences c.declared c.config.bindings handlers with
      | r :: rest => (c.report (c.doubts handlers), some (.unresolved (r :: rest)))
      | [] => (c.report (c.doubts handlers ++ lints.flatMap (·.findings c.config handlers)),
          if c.errors.isEmpty then none else some (.errorsReported c.errors.length)) := by
  have hchecks : (checkIds handlers *> checkResultNames handlers) = .ok () :=
    seqRight_eq_ok.mpr ⟨hids, hnames⟩
  have herrors : ((c.report (c.doubts handlers)).report
      (lints.flatMap (·.findings c.config handlers))).errors = c.errors := by
    rw [Compilation.errors_report fun _ => isError_of_mem_lints, Compilation.doubts,
      Compilation.errors_report fun _ => isError_of_mem_warnings]
  have hdoubts : (Phase.toleratedReferences c.declared
      (unresolvedReferences handlers c.config.bindings)).map Phase.referenceWarning
        = c.doubts handlers := by
    rw [toleratedReferences_eq, Compilation.doubts]
  rw [Phase.validateHandlers, hchecks]
  simp only [hdoubts, Compilation.declared_report, Compilation.config_report, fatalReferences_eq,
    herrors]
  cases rejectedReferences c.declared c.config.bindings handlers with
  | cons r rest => rfl
  | nil =>
      simp only [report_report]
      split_ifs <;> rfl

lemma validateHandlers_of_ids_error {e : CompileError} (hids : checkIds handlers = .error e) :
    Phase.validateHandlers lints c handlers = (c, some e) := by
  have hchecks : (checkIds handlers *> checkResultNames handlers) = .error e := by
    rw [hids]
    rfl
  rw [Phase.validateHandlers, hchecks]

lemma validateHandlers_of_names_error {e : CompileError} (hids : checkIds handlers = .ok ())
    (hnames : checkResultNames handlers = .error e) :
    Phase.validateHandlers lints c handlers = (c, some e) := by
  have hchecks : (checkIds handlers *> checkResultNames handlers) = .error e := by
    rw [hids, hnames]
    rfl
  rw [Phase.validateHandlers, hchecks]

end

/-- Whether a step that acts on a resource is bound, and with a manifest to what that declares. -/
def Step.IsServed (declared : Bool) (m : Manifest) (s : Step) : Prop :=
  ∀ resource ∈ s.action.resource?, ∃ b ∈ s.binding, declared = true → b.name ∈ m.names resource

lemma isServed_iff {declared : Bool} {m : Manifest} {h : Handler} {s : Step} :
    s.IsServed declared m ↔
      ∀ r ∈ h.reference? s, ¬(r.binding = none ∨ declared = true ∧ r.IsUndeclared m) := by
  rw [Step.IsServed, Handler.reference?]
  cases s.action.resource? with
  | none => simp
  | some resource =>
      cases hbinding : s.binding with
      | none => simp
      | some b => simp [Reference.IsUndeclared]

lemma rejectedReferences_eq_nil_iff {declared : Bool} {m : Manifest} {handlers : List Handler} :
    rejectedReferences declared m handlers = [] ↔
      ∀ h ∈ handlers, ∀ s ∈ h.steps, s.IsServed declared m := by
  rw [rejectedReferences, List.filter_eq_nil_iff]
  simp only [allReferences, List.mem_flatMap, List.mem_filterMap, decide_eq_true_eq]
  constructor
  · intro hnone h hh s hs
    rw [isServed_iff (h := h)]
    intro r hr
    exact hnone r ⟨h, hh, s, hs, hr⟩
  · rintro hserved r ⟨h, hh, s, hs, hr⟩
    exact isServed_iff.mp (hserved h hh s hs) r hr

/-! ### What comes of a validation

Each field of `IsValidated` answers one question about a validation, in terms of the handlers and
the manifest alone. -/

/-- What a validation makes of a compilation `c` that has these handlers: `c'`, and why it fails if
it does. -/
structure IsValidated (lints : List Lint) (c : Compilation) (handlers : List Handler)
    (c' : Compilation) (failure : Option CompileError) : Prop where
  passes : failure = none ↔ HaveIds handlers ∧ HaveNames handlers ∧
    (∀ h ∈ handlers, ∀ s ∈ h.steps, s.IsServed c.declared c.config.bindings) ∧ c.errors = []
  /-- The first id at fault wins over all else. -/
  ids : ¬HaveIds handlers → ∃ e, FirstFault IdFault handlers e ∧ failure = some e ∧ c' = c
  /-- The first result name at fault is next. -/
  names : HaveIds handlers → ¬HaveNames handlers →
    ∃ e, FirstFault (fun _ h => FirstFault (NameFault h.id) h.steps) handlers e ∧
      failure = some e ∧ c' = c
  /-- A failure for references lists all that are rejected, and no lint runs. -/
  references : HaveIds handlers → HaveNames handlers →
    rejectedReferences c.declared c.config.bindings handlers ≠ [] →
      failure = some (.unresolved (rejectedReferences c.declared c.config.bindings handlers)) ∧
        c' = c.report (c.doubts handlers)
  /-- No step has two references, so none is listed or warned about twice. -/
  distinct : HaveIds handlers → HaveNames handlers →
    ((allReferences handlers).map fun r => (r.handler, r.step)).Nodup
  /-- Lints run behind the checks, in their order, and errors of before come last. -/
  lints : HaveIds handlers → HaveNames handlers →
    rejectedReferences c.declared c.config.bindings handlers = [] →
      c' = c.report (c.doubts handlers ++ lints.flatMap (·.findings c.config handlers)) ∧
        failure = if c.errors = [] then none else some (.errorsReported c.errors.length)

lemma checkIds_of_haveIds {handlers : List Handler} (h : HaveIds handlers) :
    checkIds handlers = .ok () :=
  checkIds_eq_ok_iff.mpr h

lemma checkResultNames_of_haveNames {handlers : List Handler} (h : HaveNames handlers) :
    checkResultNames handlers = .ok () :=
  checkResultNames_eq_ok_iff_areNamed.mpr h

lemma isValidated_validateHandlers (lints : List Lint) (c : Compilation) (handlers : List Handler) :
    IsValidated lints c handlers (Phase.validateHandlers lints c handlers).1
      (Phase.validateHandlers lints c handlers).2 := by
  cases hids : checkIds handlers with
  | error e =>
      have hnot : ¬HaveIds handlers := by
        intro h
        simp [checkIds_of_haveIds h] at hids
      rw [validateHandlers_of_ids_error lints hids]
      exact {
        passes := by simp [hnot]
        ids := fun _ => ⟨e, checkIds_eq_error_iff.mp hids, rfl, rfl⟩
        names := fun h => absurd h hnot
        references := fun h => absurd h hnot
        distinct := fun h => absurd h hnot
        lints := fun h => absurd h hnot }
  | ok _ =>
      have hhave : HaveIds handlers := checkIds_eq_ok_iff.mp hids
      cases hnames : checkResultNames handlers with
      | error e =>
          have hnot : ¬HaveNames handlers := by
            intro h
            simp [checkResultNames_of_haveNames h] at hnames
          rw [validateHandlers_of_names_error lints hids hnames]
          exact {
            passes := by simp [hnot]
            ids := absurd hhave
            names := fun _ _ => ⟨e, checkResultNames_eq_error_iff.mp hnames, rfl, rfl⟩
            references := fun _ h => absurd h hnot
            distinct := fun _ h => absurd h hnot
            lints := fun _ h => absurd h hnot }
      | ok _ =>
          have hnamed : HaveNames handlers := checkResultNames_eq_ok_iff_areNamed.mp hnames
          have hserved : rejectedReferences c.declared c.config.bindings handlers = [] ↔
              ∀ h ∈ handlers, ∀ s ∈ h.steps, s.IsServed c.declared c.config.bindings :=
            rejectedReferences_eq_nil_iff
          rw [validateHandlers_of_checked lints hids hnames]
          cases hrejected : rejectedReferences c.declared c.config.bindings handlers with
          | cons r rest =>
              rw [hrejected] at hserved
              exact {
                passes := by simp [← hserved]
                ids := absurd hhave
                names := fun _ => absurd hnamed
                references := fun _ _ _ => ⟨by rw [hrejected], rfl⟩
                distinct := nodup_allReferences
                lints := fun _ _ h => by simp [hrejected] at h }
          | nil =>
              exact {
                passes := by simpa [hhave, hnamed] using fun _ => hserved.mp hrejected
                ids := absurd hhave
                names := fun _ => absurd hnamed
                references := fun _ _ h => absurd hrejected h
                distinct := nodup_allReferences
                lints := fun _ _ _ => ⟨rfl, by simp⟩ }

/-- **What a validation decides**, for every compilation that has handlers, and for any lints. -/
theorem isValidated_run {c : Compilation} {handlers : List Handler}
    (hlowered : c.handlers = some handlers) (lints : List Lint) :
    IsValidated lints c handlers (Phase.run c (.validate lints)).1
      (Phase.run c (.validate lints)).2 := by
  have hrun : Phase.run c (.validate lints) = Phase.validateHandlers lints c handlers := by
    rw [Phase.run, hlowered]
  rw [hrun]
  exact isValidated_validateHandlers lints c handlers

/-- A handler whose first step names a binding, and whose second step has none. -/
def halfBound : Handler :=
  ⟨"a", .get, "/a", stepsOf default
    [⟨some "CACHE", none, .kvGet "k" .text⟩, ⟨none, none, .r2Get "o"⟩], none, default⟩

/-- A compilation of this handler without a manifest. -/
def undeclared : Compilation := { Compilation.new default with
  declared := false, handlers := some [halfBound] }

/-- Without a manifest, the first step is warned about although the second one fails the
validation. -/
theorem isValidated_run_undeclared : undeclared.handlers = some [halfBound] ∧
    (Phase.run undeclared (.validate Lint.all)).2
      = some (.unresolved [⟨"a", "step2", .r2, none⟩]) ∧
    (Phase.run undeclared (.validate Lint.all)).1.diagnostics
      = [Phase.referenceWarning ⟨"a", "step1", .kv, some "CACHE"⟩] := by
  have hids : HaveIds [halfBound] := checkIds_eq_ok_iff.mp (by decide +kernel)
  have hnames : HaveNames [halfBound] :=
    checkResultNames_eq_ok_iff_areNamed.mp (by decide +kernel)
  have hrejected : rejectedReferences false undeclared.config.bindings [halfBound]
      = [⟨"a", "step2", .r2, none⟩] := by decide +kernel
  have hdoubts : undeclared.doubts [halfBound]
      = [Phase.referenceWarning ⟨"a", "step1", .kv, some "CACHE"⟩] := by decide +kernel
  obtain ⟨hfailure, hreports⟩ :=
    (isValidated_run (c := undeclared) rfl Lint.all).references hids hnames (by
      change rejectedReferences false undeclared.config.bindings [halfBound] ≠ []
      simp [hrejected])
  refine ⟨rfl, hfailure.trans (congrArg _ (congrArg _ hrejected)), ?_⟩
  rw [hreports, hdoubts]
  rfl

end WorkerGen
