import Mathlib
import WorkerGen.Proofs.Compile.Deletion

/-!
# Compilations without a manifest

A worker can be compiled before there is a manifest.  What compiles with a manifest compiles without
one, to the same handlers, routes and handler files; only the reports differ.  Nothing is left that
could be unused, and each reference to a binding is warned about instead of being looked up
(`Unhindered`).

What remains an error is a step that acts on a resource and has no binding at all.  With ids and
names in order it is the only reason to fail (`compile_withoutManifest`), and it can be told from
the description: neither the step nor the defaults name a binding (`isBound_toStep_iff`).
-/

namespace WorkerGen

/-! ## Steps without a binding

A step has the binding of its entry, or else the default of its class.  It has none just if neither
is there, and needs none just if it is a request to another server. -/

/-- Whether an entry acts on a resource and neither it nor the defaults name a binding. -/
def StepEntry.IsUnbound (entry : StepEntry) (defaults : Defaults) : Prop :=
  ∃ resource ∈ entry.action.resource?, entry.binding = none ∧ defaults.of resource = none

lemma isServed_toStep_iff {entry : StepEntry} {defaults : Defaults} {index : ℕ} {m : Manifest} :
    (entry.toStep defaults index).IsServed false m ↔ ¬entry.IsUnbound defaults := by
  rw [Step.IsServed, StepEntry.IsUnbound, StepEntry.toStep, StepEntry.binding?]
  cases entry.action.resource? with
  | none => simp
  | some resource =>
      cases entry.binding with
      | some name => simp
      | none => simp [Option.eq_none_iff_forall_ne_some]

/-- A step is bound unless neither its entry nor the defaults name a binding that it needs. -/
lemma isBound_toStep_iff {entry : StepEntry} {defaults : Defaults} {index : ℕ} :
    (entry.toStep defaults index).isBound = true ↔ ¬entry.IsUnbound defaults := by
  rw [Step.isBound, StepEntry.IsUnbound, StepEntry.toStep, StepEntry.binding?]
  cases entry.action.resource? with
  | none => simp
  | some resource =>
      cases entry.binding with
      | some name => simp
      | none => simp [Option.isSome_iff_ne_none]

/-- The steps of the handlers of a description are its entries. -/
lemma forall_steps_ofApi {api : Api} {p : Step → Prop} {q : StepEntry → Prop}
    (h : ∀ entry index, p (entry.toStep api.defaults index) ↔ q entry) :
    (∀ handler ∈ Handler.ofApi api, ∀ s ∈ handler.steps, p s) ↔
      ∀ o ∈ api.operations, ∀ entries ∈ o.2.2.steps, ∀ entry ∈ entries, q entry := by
  have hsteps : ∀ entries : List StepEntry,
      (∀ s ∈ stepsOf api.defaults entries, p s) ↔ ∀ entry ∈ entries, q entry := by
    intro entries
    constructor
    · intro hall entry hentry
      obtain ⟨index, hindex, rfl⟩ := List.mem_iff_getElem.mp hentry
      exact (h _ index).mp (hall _ (List.mem_mapIdx.mpr ⟨index, hindex, rfl⟩))
    · intro hall s hs
      obtain ⟨index, hindex, rfl⟩ := List.mem_mapIdx.mp hs
      exact (h _ index).mpr (hall _ (List.getElem_mem hindex))
  simp only [Handler.ofApi, List.mem_filterMap, Handler.ofOperation?, Option.map_eq_some_iff]
  constructor
  · intro hall o ho entries hentries
    exact (hsteps entries).mp (hall _ ⟨o, ho, entries, hentries, rfl⟩)
  · rintro hall handler ⟨o, ho, entries, hentries, rfl⟩
    exact (hsteps entries).mpr (hall o ho entries hentries)

/-! ## Reports

Each lint is asked what it finds if no manifest has been given.  What it finds otherwise is the same
but for what concerns declarations. -/

/-- Whether a diagnostic is a warning about an operation of the description. -/
def Diagnostic.IsOnOperation (d : Diagnostic) : Prop :=
  d.isWarning = true ∧ ∃ rest, d.location = some ("paths." ++ rest)

lemma isOnOperation_emptySequence {config : Config} {handlers : List Handler} {d : Diagnostic}
    (hd : d ∈ Lint.emptySequence.findings config handlers) : d.IsOnOperation := by
  obtain ⟨h, -, hsome⟩ := List.mem_filterMap.mp hd
  rw [Lint.emptySequenceOf?, Option.ite_none_right_eq_some] at hsome
  rw [← Option.some_inj.mp hsome.2]
  exact ⟨rfl, h.path ++ "." ++ h.method.name,
    by simp [Lint.finding, Handler.location, String.append_assoc]⟩

lemma isOnOperation_fetchBinding {config : Config} {handlers : List Handler} {d : Diagnostic}
    (hd : d ∈ Lint.fetchBinding.findings config handlers) : d.IsOnOperation := by
  obtain ⟨⟨path, method, operation⟩, -, hmem⟩ := List.mem_flatMap.mp hd
  obtain ⟨found, hfound, hsome⟩ := List.mem_filterMap.mp hmem
  obtain ⟨index, hindex, rfl⟩ := List.mem_mapIdx.mp hfound
  unfold Lint.fetchBindingOf? at hsome
  split at hsome
  · rw [← Option.some_inj.mp hsome]
    exact ⟨rfl, path ++ "." ++ method.name ++ ".x-operations[" ++ toString index ++ "]",
      by simp [Lint.finding, String.append_assoc]⟩
  · exact absurd hsome (by simp)

lemma isWarning_unusedBinding {config : Config} {handlers : List Handler} {d : Diagnostic}
    (hd : d ∈ Lint.unusedBinding.findings config handlers) : d.isWarning = false := by
  obtain ⟨resource, -, hmem⟩ := List.mem_flatMap.mp hd
  obtain ⟨name, -, rfl⟩ := List.mem_map.mp hmem
  rfl

lemma isOnOperation_of_mem_lints {config : Config} {handlers : List Handler} {d : Diagnostic}
    (hd : d ∈ Lint.all.flatMap (·.findings config handlers)) (hwarning : d.isWarning = true) :
    d.IsOnOperation := by
  obtain ⟨lint, -, hd⟩ := List.mem_flatMap.mp hd
  cases lint with
  | emptySequence => exact isOnOperation_emptySequence hd
  | fetchBinding => exact isOnOperation_fetchBinding hd
  | unusedBinding => exact absurd hwarning (by simp [isWarning_unusedBinding hd])

/-- A manifest that declares nothing has no unused binding, and the other lints do not look at it:
what is left of their findings are the warnings. -/
lemma lints_withoutManifest (inputs : Config) (handlers : List Handler) :
    Lint.all.flatMap (·.findings { inputs with bindings := .empty } handlers) =
      (Lint.all.flatMap (·.findings inputs handlers)).filter (·.isWarning) := by
  have hnone : Lint.unusedBinding.findings { inputs with bindings := .empty } handlers = [] :=
    List.flatMap_eq_nil_iff.mpr fun resource _ => by cases resource <;> rfl
  have hunused : (Lint.unusedBinding.findings inputs handlers).filter (·.isWarning) = [] :=
    List.filter_eq_nil_iff.mpr fun d hd => by simp [isWarning_unusedBinding hd]
  have hempty : (Lint.emptySequence.findings inputs handlers).filter (·.isWarning)
      = Lint.emptySequence.findings { inputs with bindings := .empty } handlers :=
    List.filter_eq_self.mpr fun d hd => (isOnOperation_emptySequence hd).1
  have hfetch : (Lint.fetchBinding.findings inputs handlers).filter (·.isWarning)
      = Lint.fetchBinding.findings { inputs with bindings := .empty } handlers :=
    List.filter_eq_self.mpr fun d hd => (isOnOperation_fetchBinding hd).1
  simp [Lint.all, List.filter_append, hnone, hunused, hempty, hfetch]

/-- The warnings of the lints are no warnings about references, which are at a table of the
manifest. -/
lemma Diagnostic.IsOnOperation.ne_referenceWarning {d : Diagnostic} (h : d.IsOnOperation)
    (r : Reference) : d ≠ Phase.referenceWarning r := by
  rintro rfl
  obtain ⟨-, rest, hlocation⟩ := h
  have hhead := congrArg (fun s : String => s.toList.head?) (Option.some_inj.mp hlocation)
  have hpaths : ("paths." ++ rest).toList.head? = some 'p' := by
    rw [String.toList_append]
    rfl
  rw [hpaths] at hhead
  cases hr : r.resource <;> rw [hr] at hhead <;> exact absurd hhead (by decide)

/-! ## Compilations

Both compilations are taken through their phases.  They share the handlers, and so the checks on
names; they differ in the references that they fail for, and those of the second are among those of
the first. -/

/-- The start of a compilation without a manifest. -/
def Compilation.withoutManifest (inputs : Config) : Compilation :=
  (Compilation.new { inputs with bindings := .empty }).declare false

namespace Compilation

/-- What a compilation `c'` without a manifest has in common with a compilation `c` with one, and
what it reports instead. -/
structure Unhindered (c c' : Compilation) (handlers : List Handler) (routes : List Route) :
    Prop where
  lowered : c.handlers = some handlers ∧ c'.handlers = some handlers
  analyzed : c.routes = some routes ∧ c'.routes = some routes
  /-- Behind the global files both workers have the same files. -/
  files : c.Renders (Worker.globalFiles c.config routes ++ handlers.map Worker.handlerFile) ∧
    c'.Renders (Worker.globalFiles c'.config routes ++ handlers.map Worker.handlerFile)
  /-- Each reference is warned about once, in order, before the warnings that there are anyway. -/
  diagnostics : c'.diagnostics =
    (allReferences handlers).map Phase.referenceWarning ++ c.warnings
  /-- Every reference names a binding, and no step has two. -/
  references : (∀ r ∈ allReferences handlers, r.binding ≠ none) ∧
    ((allReferences handlers).map fun r => (r.handler, r.step)).Nodup
  /-- None of the other warnings is about a reference. -/
  others : ∀ d ∈ c.warnings, ∀ r, d ≠ Phase.referenceWarning r

/-- What a compilation needs to pass, in terms of its steps. -/
lemma acceptable_iff {c : Compilation} {handlers : List Handler} : c.Acceptable handlers ↔
    HaveIds handlers ∧ HaveNames handlers ∧
      (∀ h ∈ handlers, ∀ s ∈ h.steps, s.IsServed c.declared c.config.bindings) ∧ c.errors = [] := by
  constructor
  · rintro ⟨hids, hnames, hreferences, herrors⟩
    rw [fatalReferences_eq] at hreferences
    exact ⟨checkIds_eq_ok_iff.mp hids, checkResultNames_eq_ok_iff_areNamed.mp hnames,
      rejectedReferences_eq_nil_iff.mp hreferences, herrors⟩
  · rintro ⟨hids, hnames, hserved, herrors⟩
    refine ⟨checkIds_of_haveIds hids, checkResultNames_of_haveNames hnames, ?_, herrors⟩
    rw [fatalReferences_eq]
    exact rejectedReferences_eq_nil_iff.mpr hserved

/-- What a compilation comes to that passes. -/
lemma Acceptable.runPhases_eq {c : Compilation} (h : c.Acceptable (Handler.ofApi c.config.api))
    (lints : List Lint) : c.runPhases (phases lints) = .ok
      { c.report (c.doubts (Handler.ofApi c.config.api) ++
          lints.flatMap (·.findings c.config (Handler.ofApi c.config.api))) with
        handlers := some (Handler.ofApi c.config.api)
        routes := some (Route.table c.config.api (Handler.ofApi c.config.api)) } := by
  have hrejected : rejectedReferences c.declared c.config.bindings (Handler.ofApi c.config.api)
      = [] := by rw [← fatalReferences_eq, h.references]
  have herrors : Compilation.errors { c with handlers := some (Handler.ofApi c.config.api) }
      = [] := h.errors
  rw [runPhases_phases, validateHandlers_of_checked lints h.ids h.names, hrejected]
  simp only [herrors, List.isEmpty_nil, if_true]
  rfl

/-- What is reported in a compilation that succeeds: first what was reported before, then doubts
about references, then the findings of the lints. -/
lemma diagnostics_of_runPhases {c₀ c : Compilation} {lints : List Lint}
    (h : c₀.runPhases (phases lints) = .ok c) : c.diagnostics = c₀.diagnostics ++
      (c₀.doubts (Handler.ofApi c₀.config.api) ++
        lints.flatMap (·.findings c₀.config (Handler.ofApi c₀.config.api))) := by
  have haccepted := exists_runPhases_iff.mp ⟨c, h⟩
  obtain rfl := Except.ok.inj (h.symm.trans (haccepted.runPhases_eq lints))
  rfl

/-- Without a manifest every reference to a binding is doubted. -/
lemma doubtedReferences_withoutManifest {handlers : List Handler}
    (hserved : ∀ h ∈ handlers, ∀ s ∈ h.steps, s.IsServed false .empty) :
    doubtedReferences false .empty handlers = allReferences handlers ∧
      ∀ r ∈ allReferences handlers, r.binding ≠ none := by
  have hnamed : ∀ r ∈ allReferences handlers, r.binding ≠ none := by
    have hnone := rejectedReferences_eq_nil_iff.mpr hserved
    rw [rejectedReferences, List.filter_eq_nil_iff] at hnone
    intro r hr
    simpa using hnone r hr
  refine ⟨List.filter_eq_self.mpr fun r hr => ?_, hnamed⟩
  obtain ⟨name, hname⟩ := Option.ne_none_iff_exists'.mp (hnamed r hr)
  have hempty : ∀ resource, Manifest.empty.names resource = [] := by
    intro resource
    cases resource <;> rfl
  simp [Reference.IsUndeclared, hname, hempty]

/-- **A manifest is not needed to compile.**  What compiles with a manifest compiles without one, to
the same worker but for its global files, and each reference to a binding is warned about once.  A
description whose ids and names are in order fails without a manifest exactly if one of its steps
acts on a resource and neither the step nor the defaults name a binding. -/
theorem compile_withoutManifest (inputs : Config) :
    (∀ c, (Compilation.new inputs).compile = .ok c →
      ∃ c' handlers routes, (withoutManifest inputs).compile = .ok c' ∧
        Unhindered c c' handlers routes) ∧
    (HaveIds (Handler.ofApi inputs.api) → HaveNames (Handler.ofApi inputs.api) →
      ((∃ e, (withoutManifest inputs).compile = .error e) ↔
        ∃ o ∈ inputs.api.operations, ∃ entries ∈ o.2.2.steps, ∃ entry ∈ entries,
          entry.IsUnbound inputs.api.defaults)) := by
  have hsteps : (∀ h ∈ Handler.ofApi inputs.api, ∀ s ∈ h.steps, s.IsServed false .empty) ↔
      ∀ o ∈ inputs.api.operations, ∀ entries ∈ o.2.2.steps, ∀ entry ∈ entries,
        ¬entry.IsUnbound inputs.api.defaults :=
    forall_steps_ofApi fun _ _ => isServed_toStep_iff
  constructor
  · intro c hcompile
    have haccepted := exists_runPhases_iff.mp ⟨c, hcompile⟩
    obtain ⟨hids, hnames, hserved, -⟩ := acceptable_iff.mp haccepted
    have hserved' : ∀ h ∈ Handler.ofApi inputs.api, ∀ s ∈ h.steps, s.IsServed false .empty :=
      fun h hh s hs resource hresource =>
        let ⟨b, hb, _⟩ := hserved h hh s hs resource hresource
        ⟨b, hb, by simp⟩
    have haccepted' : (withoutManifest inputs).Acceptable (Handler.ofApi inputs.api) :=
      acceptable_iff.mpr ⟨hids, hnames, hserved', rfl⟩
    have hcompile' : (withoutManifest inputs).compile = .ok _ :=
      haccepted'.runPhases_eq Lint.all
    obtain ⟨hdoubted, hnamed⟩ := doubtedReferences_withoutManifest hserved'
    have hwarnings : c.warnings = (Lint.all.flatMap
        (·.findings inputs (Handler.ofApi inputs.api))).filter (·.isWarning) := by
      obtain rfl := Except.ok.inj (hcompile.symm.trans (haccepted.runPhases_eq Lint.all))
      simp [warnings, report, doubts, doubtedReferences, Compilation.new]
    have hcompiled := (compiled_and_errors_of_runPhases hcompile).1
    have hcompiled' := (compiled_and_errors_of_runPhases hcompile').1
    refine ⟨_, Handler.ofApi inputs.api, Route.table inputs.api (Handler.ofApi inputs.api),
      hcompile', ?_⟩
    exact {
      lowered := ⟨hcompiled.handlers, rfl⟩
      analyzed := ⟨hcompiled.routes, rfl⟩
      files := ⟨⟨_, _, hcompiled.routes, hcompiled.handlers, Worker.render_of_compiled hcompiled⟩,
        ⟨_, _, rfl, rfl, Worker.render_of_compiled hcompiled'⟩⟩
      diagnostics := by
        rw [hwarnings, ← lints_withoutManifest, ← hdoubted]
        rfl
      references := ⟨hnamed, nodup_allReferences hids hnames⟩
      others := by
        intro d hd r
        rw [hwarnings, List.mem_filter] at hd
        exact (isOnOperation_of_mem_lints hd.1 hd.2).ne_referenceWarning r }
  · intro hids hnames
    have hfails : (∃ e, (withoutManifest inputs).compile = .error e) ↔
        ¬∃ c, (withoutManifest inputs).compile = .ok c := by
      cases (withoutManifest inputs).compile <;> simp
    have hpasses : (∃ c, (withoutManifest inputs).compile = .ok c) ↔
        ∀ h ∈ Handler.ofApi inputs.api, ∀ s ∈ h.steps, s.IsServed false .empty := by
      refine exists_runPhases_iff.trans (acceptable_iff.trans ?_)
      exact ⟨fun h => h.2.2.1, fun h => ⟨hids, hnames, h, rfl⟩⟩
    rw [hfails, hpasses, hsteps]
    push Not
    rfl

/-- Inputs with a step that names its binding, one that does not, a request that names one in vain,
and a bucket that no step uses. -/
def cached : Config :=
  { (default : Config) with
    bindings := { Manifest.empty with
      kvNamespaces := [⟨"CACHE", none, none⟩, ⟨"USERS", none, none⟩], r2Buckets := [⟨"OLD", none⟩] }
    api := { Api.empty with
      paths := .set .empty "/a" (.set .empty .get ⟨some "read", none, some
        [⟨some "USERS", none, .kvGet "k" .text⟩, ⟨none, none, .kvDelete "k"⟩,
          ⟨some "CACHE", none, .fetch "u" "GET" .empty none⟩], none⟩)
      defaults := ⟨none, some "CACHE", none⟩ } }

/-- The same inputs without a default binding. -/
def cachedBare : Config := { cached with api := { cached.api with defaults := default } }

theorem compile_withoutManifest_cached : ∃ c c' handlers routes,
    (Compilation.new cached).compile = .ok c ∧ (withoutManifest cached).compile = .ok c' ∧
    Unhindered c c' handlers routes ∧
    c'.diagnostics.map (·.text) =
      ["warning: read step 'step1': 'USERS' is not declared in kv_namespaces (at kv_namespaces)",
        "warning: read step 'step2': 'CACHE' is not declared in kv_namespaces (at kv_namespaces)",
        "warning: binding 'CACHE' on a fetch step is ignored (at paths./a.get.x-operations[2])"] ∧
    ∃ e, (withoutManifest cachedBare).compile = .error e := by
  obtain ⟨c, hcompile⟩ : ∃ c, (Compilation.new cached).compile = .ok c := ⟨_, rfl⟩
  obtain ⟨c', handlers, routes, hcompile', hunhindered⟩ :=
    (compile_withoutManifest cached).1 c hcompile
  have hids : HaveIds (Handler.ofApi cachedBare.api) := checkIds_eq_ok_iff.mp (by decide +kernel)
  have hnames : HaveNames (Handler.ofApi cachedBare.api) :=
    checkResultNames_eq_ok_iff_areNamed.mp (by decide +kernel)
  have hfails := ((compile_withoutManifest cachedBare).2 hids hnames).mpr
    ⟨_, List.mem_cons_self, _, rfl, ⟨none, none, .kvDelete "k"⟩,
      List.mem_cons_of_mem _ List.mem_cons_self, .kv, rfl, rfl, rfl⟩
  refine ⟨c, c', handlers, routes, hcompile, hcompile', hunhindered, ?_, hfails⟩
  obtain rfl := Except.ok.inj hcompile'
  decide +kernel

end Compilation

end WorkerGen
