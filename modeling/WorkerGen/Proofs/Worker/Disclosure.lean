import Mathlib
import WorkerGen.Compile.State
import WorkerGen.Worker.Target

/-!
# What a worker discloses

All inputs are at hand when a worker is compiled and rendered, the environment among them.  A worker
is deployed and may be read by others, so it must not show what is only for the tools and for the
platform: the environment, the variables, the ids of resources, and how the worker is started.

* `Config.disclosed` — the inputs without what is kept.
* `same_worker_of_disclosed` — inputs that differ only in what is kept lead to the same result of a
  compilation and to the same files.

It is not enough to look at the files.  Whether a compilation succeeds and what it reports could
tell as much, so each phase is shown to do the same where what is kept is missing
(`Phase.IsDiscreet`), and each file to be written alike.  Two sets of inputs with the same disclosed
part are then compared by way of that part.
-/

namespace WorkerGen

/-! ## What is kept

The names of bindings, databases and buckets are disclosed, since commands and the worker itself use
them. -/

/-- A database without its id. -/
def D1Database.disclosed (d : D1Database) : D1Database := { d with databaseId := none }

/-- A namespace without its ids. -/
def KvNamespace.disclosed (n : KvNamespace) : KvNamespace :=
  { n with id := none, previewId := none }

/-- A manifest without its variables, its settings for the platform, and the ids of resources. -/
def Manifest.disclosed (m : Manifest) : Manifest :=
  { m with
    main := none
    compatibilityDate := none
    d1Databases := m.d1Databases.map D1Database.disclosed
    kvNamespaces := m.kvNamespaces.map KvNamespace.disclosed
    vars := .empty }

/-- The inputs without what is kept. -/
def Config.disclosed (config : Config) : Config :=
  { config with bindings := config.bindings.disclosed, env := .empty }

/-! ## The manifest -/

lemma Manifest.names_disclosed (m : Manifest) :
    ∀ resource, m.disclosed.names resource = m.names resource
  | .d1 => List.map_map ..
  | .kv => List.map_map ..
  | .r2 => rfl

lemma Reference.isResolved_disclosed (m : Manifest) (r : Reference) :
    r.isResolved m.disclosed = r.isResolved m := by
  rw [isResolved, isResolved]
  refine congrArg (r.binding.any ·) (funext fun name => ?_)
  rw [Manifest.declares, Manifest.declares, Manifest.names_disclosed]

lemma unresolvedReferences_disclosed (handlers : List Handler) (m : Manifest) :
    unresolvedReferences handlers m.disclosed = unresolvedReferences handlers m := by
  simp only [unresolvedReferences, Reference.isResolved_disclosed]

lemma Lint.findings_disclosed (config : Config) (handlers : List Handler) :
    ∀ lint : Lint, lint.findings config.disclosed handlers = lint.findings config handlers
  | .emptySequence => rfl
  | .fetchBinding => rfl
  | .unusedBinding => by
      have hnames := config.bindings.names_disclosed
      simp only [findings, Config.disclosed, hnames]

/-! ## Compilations

A phase is a function of the compilation, and being discreet is an equation.  It is kept by running
one phase after another. -/

/-- A compilation without what is kept. -/
def Compilation.disclosed (c : Compilation) : Compilation := { c with config := c.config.disclosed }

/-- Whether a phase does the same where what is kept is missing. -/
def Phase.IsDiscreet (p : Phase) : Prop :=
  ∀ c : Compilation, p.run c.disclosed = ((p.run c).1.disclosed, (p.run c).2)

namespace Phase

lemma isDiscreet_lower : lower.IsDiscreet := fun _ => rfl

lemma isDiscreet_analyze : analyze.IsDiscreet := by
  rintro ⟨config, declared, handlers, routes, diagnostics⟩
  cases handlers <;> rfl

lemma validateHandlers_disclosed (lints : List Lint) (c : Compilation) (handlers : List Handler) :
    validateHandlers lints c.disclosed handlers = ((validateHandlers lints c handlers).1.disclosed,
      (validateHandlers lints c handlers).2) := by
  have hreferences : unresolvedReferences handlers c.disclosed.config.bindings
      = unresolvedReferences handlers c.config.bindings := unresolvedReferences_disclosed _ _
  have hdeclared : ∀ c : Compilation, c.disclosed.declared = c.declared := fun _ => rfl
  have hreport : ∀ (c : Compilation) (reports : List Diagnostic),
      c.disclosed.report reports = (c.report reports).disclosed := fun _ _ => rfl
  have hlints : ∀ (c : Compilation) (lint : Lint),
      lint.findings c.disclosed.config handlers = lint.findings c.config handlers :=
    fun c lint => lint.findings_disclosed c.config handlers
  rw [validateHandlers, validateHandlers]
  cases checkIds handlers *> checkResultNames handlers with
  | error e => rfl
  | ok =>
      simp only [hreferences, hreport, hdeclared, hlints]
      generalize c.report _ = reported
      cases fatalReferences reported.declared _ with
      | cons => rfl
      | nil =>
          dsimp only
          generalize reported.report _ = last
          have herrors : last.disclosed.errors = last.errors := rfl
          rw [herrors]
          split_ifs <;> rfl

lemma isDiscreet_validate (lints : List Lint) : (validate lints).IsDiscreet := by
  rintro ⟨config, declared, handlers, routes, diagnostics⟩
  cases handlers with
  | none => rfl
  | some handlers => exact validateHandlers_disclosed lints _ handlers

end Phase

namespace Compilation

/-- What is kept does not matter to phases that are discreet. -/
lemma runPhases_disclosed : ∀ {phases : List Phase} (c : Compilation),
    (∀ p ∈ phases, p.IsDiscreet) →
      c.disclosed.runPhases phases = (c.runPhases phases).map disclosed
  | [], _, _ => rfl
  | p :: rest, c, h => by
      obtain ⟨hp, hrest⟩ := List.forall_mem_cons.mp h
      rw [runPhases, runPhases, hp c]
      cases hrun : p.run c with
      | mk c' failure =>
          cases failure with
          | some e => rfl
          | none => exact runPhases_disclosed c' hrest

/-- What is kept does not matter to a compilation. -/
theorem runPhases_phases_disclosed (lints : List Lint) (c : Compilation) :
    c.disclosed.runPhases (phases lints) = (c.runPhases (phases lints)).map disclosed := by
  refine runPhases_disclosed c ?_
  simp only [phases, List.forall_mem_cons]
  exact ⟨Phase.isDiscreet_lower, Phase.isDiscreet_validate lints, Phase.isDiscreet_analyze, by simp⟩

end Compilation

/-! ## Files

Only the files with tables look at the manifest, and they show names of bindings, databases and
buckets. -/

namespace Worker

lemma databaseLine_disclosed (d : D1Database) : databaseLine d.disclosed = databaseLine d := by
  obtain ⟨binding, name, id⟩ := d
  cases name <;> cases id <;> rfl

lemma databases_disclosed (m : Manifest) : databases m.disclosed = databases m := by
  have hlines : m.disclosed.d1Databases.map databaseLine = m.d1Databases.map databaseLine :=
    (List.map_map ..).trans (List.map_congr_left fun d _ => databaseLine_disclosed d)
  rw [databases, databases, hlines]

lemma namespaces_disclosed (m : Manifest) : namespaces m.disclosed = namespaces m := by
  have hlines : m.disclosed.kvNamespaces.map namespaceLine = m.kvNamespaces.map namespaceLine :=
    List.map_map ..
  rw [namespaces, namespaces, hlines]

lemma content_disclosed (config : Config) (routes : List Route) :
    ∀ file : GlobalFile, file.content config.disclosed routes = file.content config routes
  | .entry => rfl
  | .router => rfl
  | .databases => databases_disclosed config.bindings
  | .namespaces => namespaces_disclosed config.bindings
  | .buckets => rfl
  | .support => rfl

/-- What is kept does not matter to any file. -/
theorem render_disclosed (config : Config) (routes : List Route) (handlers : List Handler) :
    target.render config.disclosed routes handlers = target.render config routes handlers := by
  have hglobals : ∀ name, target.renderGlobal name config.disclosed routes
      = target.renderGlobal name config routes := by
    intro name
    simp only [target, renderGlobal, content_disclosed]
  simp only [Target.render, hglobals]

/-! ## Inputs that differ in what is kept -/

/-- Whether two compilations have come to the same, in all but what is kept. -/
inductive SameCompilation : Except CompileError Compilation → Except CompileError Compilation → Prop
  | failed (e : CompileError) : SameCompilation (.error e) (.error e)
  | compiled {c c' : Compilation} (declared : c.declared = c'.declared)
      (handlers : c.handlers = c'.handlers) (routes : c.routes = c'.routes)
      (diagnostics : c.diagnostics = c'.diagnostics)
      (files : ∀ routes handlers,
        target.render c.config routes handlers = target.render c'.config routes handlers) :
      SameCompilation (.ok c) (.ok c')

lemma render_eq_of_disclosed {config config' : Config} (h : config.disclosed = config'.disclosed)
    (routes : List Route) (handlers : List Handler) :
    target.render config routes handlers = target.render config' routes handlers := by
  rw [← render_disclosed, h, render_disclosed]

lemma sameCompilation_of_disclosed : ∀ {result result' : Except CompileError Compilation},
    result.map Compilation.disclosed = result'.map Compilation.disclosed →
      SameCompilation result result'
  | .error e, .error e', h => by
      obtain rfl := Except.error.inj h
      exact .failed e
  | .ok c, .ok c', h => by
      obtain ⟨hconfig, hdeclared, hhandlers, hroutes, hdiagnostics⟩ :=
        Compilation.mk.inj (Except.ok.inj h)
      exact .compiled hdeclared hhandlers hroutes hdiagnostics (render_eq_of_disclosed hconfig)
  | .error _, .ok _, h => nomatch h
  | .ok _, .error _, h => nomatch h

/-- **What is kept is not disclosed**: inputs that differ only in the environment, the variables,
the settings for the platform and the ids of resources lead to the same result of a compilation, and
to the same files. -/
theorem same_worker_of_disclosed {config config' : Config}
    (h : config.disclosed = config'.disclosed) (declared : Bool) (reports : List Diagnostic)
    (lints : List Lint) :
    SameCompilation
      ((((Compilation.new config).declare declared).report reports).runPhases
        (Compilation.phases lints))
      ((((Compilation.new config').declare declared).report reports).runPhases
        (Compilation.phases lints)) ∧
    ∀ routes handlers,
      target.render config routes handlers = target.render config' routes handlers := by
  refine ⟨sameCompilation_of_disclosed ?_, render_eq_of_disclosed h⟩
  have hstart : (((Compilation.new config).declare declared).report reports).disclosed
      = (((Compilation.new config').declare declared).report reports).disclosed :=
    congrArg (fun config => ((Compilation.new config).declare declared).report reports) h
  rw [← Compilation.runPhases_phases_disclosed, hstart, Compilation.runPhases_phases_disclosed]

/-- An operation that reads a token, for a worker that may be started in several ways. -/
def tokenConfig (main : Option String) (databaseId namespaceId : Option String)
    (vars : Dictionary Json) (env : Dictionary String) : Config where
  bindings :=
    { Manifest.empty with
      main := main
      compatibilityDate := main
      d1Databases := [⟨"DB", some "shop", databaseId⟩]
      kvNamespaces := [⟨"CACHE", namespaceId, databaseId⟩]
      vars := vars }
  api :=
    { Api.empty with
      paths := Listing.empty.set "/token" (Listing.empty.set .get
        { Operation.blank with
          steps := some [⟨some "CACHE", some "token", .kvGet "token" .text⟩] }) }
  env := env

theorem same_worker_tokenConfig :
    let config := tokenConfig none none none .empty .empty
    let config' := tokenConfig (some "2024-01-01") (some "7f3a") (some "c0de")
      (Dictionary.ofList [("TOKEN", .string "s3cret")]) (Dictionary.ofList [("KEY", "s3cret")])
    config.disclosed = config'.disclosed ∧ config ≠ config' ∧
      SameCompilation ((Compilation.new config).runPhases (Compilation.phases Lint.all))
        ((Compilation.new config').runPhases (Compilation.phases Lint.all)) ∧
      ∀ routes handlers,
        target.render config routes handlers = target.render config' routes handlers := by
  intro config config'
  have hsame : config.disclosed = config'.disclosed := rfl
  exact ⟨hsame, by decide, same_worker_of_disclosed hsame true [] Lint.all⟩

end Worker

end WorkerGen
