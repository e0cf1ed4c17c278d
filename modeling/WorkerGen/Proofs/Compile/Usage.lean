import Mathlib
import WorkerGen.Proofs.Compile.Undeclared

/-!
# Used and unused bindings

A validation looks up each binding that a step uses among the declarations of the manifest, and a
lint looks for each declaration among the bindings that steps use.  `Accounted` says that the two
agree: steps are bound to what is declared for their own class, and what is declared is either used
by a step of its class or remarked on.

A remark names its declaration (`unusedRemark_injective`), and the lint makes one remark for each
declaration that is not used, in their order (`findings_unusedBinding`); nothing else in a
compilation is a remark (`remarks_of_compile`).  So after a compilation with a manifest the remarks
and the used bindings divide its declarations (`accounted_after_compile`).
-/

namespace WorkerGen

/-! ## Declarations and their use

A binding is used under a class: a namespace and a bucket of one name are two declarations, and a
step that uses the one leaves the other unused. -/

/-- The declarations of a manifest by class and name: databases first, then namespaces, then
buckets, those of a class in the order of the manifest. -/
def Manifest.declarations (m : Manifest) : List (Resource × String) :=
  m.d1Databases.map (fun d => (.d1, d.binding)) ++
    m.kvNamespaces.map (fun n => (.kv, n.binding)) ++ m.r2Buckets.map (fun b => (.r2, b.binding))

lemma Manifest.mem_declarations {m : Manifest} {resource : Resource} {name : String} :
    (resource, name) ∈ m.declarations ↔ name ∈ m.names resource := by
  cases resource <;> simp [declarations, names]

lemma Manifest.declarations_eq (m : Manifest) : m.declarations =
    Resource.all.flatMap fun resource => (m.names resource).map (Prod.mk resource) := by
  simp [declarations, Resource.all, names, Function.comp_def]

/-- Whether a step acts on a resource of a class and is bound to a name. -/
def Step.Uses (s : Step) (e : Resource × String) : Prop :=
  s.action.resource? = some e.1 ∧ s.binding.map (·.name) = some e.2

instance (s : Step) (e : Resource × String) : Decidable (s.Uses e) :=
  inferInstanceAs (Decidable (_ ∧ _))

/-- Whether a step of some handler uses a binding. -/
def IsUsed (handlers : List Handler) (e : Resource × String) : Prop :=
  ∃ h ∈ handlers, ∃ s ∈ h.steps, s.Uses e

instance (handlers : List Handler) (e : Resource × String) : Decidable (IsUsed handlers e) :=
  inferInstanceAs (Decidable (∃ h ∈ handlers, ∃ s ∈ h.steps, s.Uses e))

lemma mem_references_iff {h : Handler} {r : Reference} : r ∈ h.references ↔
    ∃ s ∈ h.steps, ∃ resource ∈ s.action.resource?,
      r = ⟨h.id, s.name, resource, s.binding.map (·.name)⟩ := by
  simp [Handler.references_eq, Handler.reference?, List.mem_filterMap, eq_comm]

/-- What the references name is what the steps use. -/
lemma mem_usedBindings {handlers : List Handler} {e : Resource × String} :
    e ∈ Lint.usedBindings handlers ↔ IsUsed handlers e := by
  obtain ⟨resource, name⟩ := e
  simp only [Lint.usedBindings, List.mem_filterMap, List.mem_flatMap, mem_references_iff,
    Option.map_eq_some_iff, IsUsed, Step.Uses]
  constructor
  · rintro ⟨r, ⟨h, hh, s, hs, resource, hresource, rfl⟩, name, hname, heq⟩
    obtain ⟨rfl, rfl⟩ := Prod.mk.inj heq
    exact ⟨h, hh, s, hs, hresource, Option.map_eq_some_iff.mp hname⟩
  · rintro ⟨h, hh, s, hs, hresource, hname⟩
    exact ⟨_, ⟨h, hh, s, hs, resource, hresource, rfl⟩, name, Option.map_eq_some_iff.mpr hname, rfl⟩

/-! ## Remarks

A remark shows the class and the name of its declaration.  The two can be told from its text, so
that counting remarks is counting declarations. -/

/-- The remark that a declared binding is not used. -/
def unusedRemark (e : Resource × String) : Diagnostic :=
  ⟨.info, "validate", "binding '" ++ e.2 ++ "' is not used by any operation", some e.1.table⟩

lemma table_injective : Function.Injective Resource.table := by
  intro a b h
  cases a <;> cases b <;> first | rfl | exact absurd h (by decide)

/-- **A remark tells which declaration it is about.** -/
theorem unusedRemark_injective : Function.Injective unusedRemark := by
  rintro ⟨resource, name⟩ ⟨resource', name'⟩ h
  obtain ⟨-, -, hmessage, htable⟩ := Diagnostic.mk.inj h
  have hname : name = name' := by simpa [String.append_assoc] using hmessage
  exact Prod.ext (table_injective (Option.some.inj htable)) hname

/-- The lint for unused bindings goes through the declarations in their order. -/
lemma findings_unusedBinding (config : Config) (handlers : List Handler) :
    Lint.unusedBinding.findings config handlers =
      (config.bindings.declarations.filter fun e => ¬IsUsed handlers e).map unusedRemark := by
  have hused : ∀ e, (Lint.usedBindings handlers).contains e = decide (IsUsed handlers e) := by
    intro e
    rw [List.contains_eq_mem, decide_eq_decide]
    exact mem_usedBindings
  rw [Manifest.declarations_eq, List.filter_flatMap, List.map_flatMap]
  refine List.flatMap_congr fun resource _ => ?_
  simp only [hused, List.filter_map, List.map_map, decide_not]
  rfl

/-- Whether a diagnostic is a remark. -/
def Diagnostic.isRemark (d : Diagnostic) : Bool := d.severity == .info

lemma isRemark_of_isWarning {d : Diagnostic} (h : d.isWarning = true) : d.isRemark = false := by
  rw [Diagnostic.isWarning, beq_iff_eq] at h
  rw [Diagnostic.isRemark, h]
  rfl

lemma filter_isRemark_of_warnings {reports : List Diagnostic}
    (h : ∀ d ∈ reports, d.isWarning = true) : reports.filter (·.isRemark) = [] :=
  List.filter_eq_nil_iff.mpr fun d hd => by simp [isRemark_of_isWarning (h d hd)]

/-- Nothing but an unused binding is remarked on. -/
lemma filter_isRemark_lints (config : Config) (handlers : List Handler) :
    (Lint.all.flatMap (·.findings config handlers)).filter (·.isRemark) =
      (config.bindings.declarations.filter fun e => ¬IsUsed handlers e).map unusedRemark := by
  have hempty : (Lint.emptySequence.findings config handlers).filter (·.isRemark) = [] :=
    filter_isRemark_of_warnings fun d hd => (isOnOperation_emptySequence hd).1
  have hfetch : (Lint.fetchBinding.findings config handlers).filter (·.isRemark) = [] :=
    filter_isRemark_of_warnings fun d hd => (isOnOperation_fetchBinding hd).1
  have hunused : (Lint.unusedBinding.findings config handlers).filter (·.isRemark) =
      (config.bindings.declarations.filter fun e => ¬IsUsed handlers e).map unusedRemark := by
    rw [findings_unusedBinding]
    refine List.filter_eq_self.mpr fun d hd => ?_
    obtain ⟨e, -, rfl⟩ := List.mem_map.mp hd
    rfl
  simp only [Lint.all, List.flatMap_cons, List.flatMap_nil, List.append_nil, List.filter_append,
    hempty, hfetch, hunused, List.nil_append]

/-! ## Compilations

The lint asks for each declaration whether the references name it, and the validation asks for each
reference whether it is declared.  Both are questions about the class and the name. -/

/-- How the handlers and the diagnostics of a compilation account for the declarations of a
manifest. -/
structure Accounted (m : Manifest) (handlers : List Handler) (diagnostics : List Diagnostic) :
    Prop where
  /-- A step that is bound acts on a resource, and the manifest declares the name for its class. -/
  declared : ∀ h ∈ handlers, ∀ s ∈ h.steps, ∀ b ∈ s.binding,
    ∃ resource, s.Uses (resource, b.name) ∧ (resource, b.name) ∈ m.declarations
  /-- What is declared and not used is remarked on in the order of the declarations, and nothing
  else is. -/
  remarks : diagnostics.filter (·.isRemark) =
    (m.declarations.filter fun e => ¬IsUsed handlers e).map unusedRemark
  /-- No declaration is both used and remarked on, and none is neither. -/
  divided : ∀ e ∈ m.declarations, unusedRemark e ∈ diagnostics ↔ ¬IsUsed handlers e
  /-- A declaration that is not used is remarked on as often as it is made. -/
  counted : ∀ e ∈ m.declarations, ¬IsUsed handlers e →
    diagnostics.count (unusedRemark e) = m.declarations.count e

section
variable {m : Manifest} {handlers : List Handler} {diagnostics : List Diagnostic}

/-- How often a remark is made, if the remarks are made in order. -/
lemma count_unusedRemark (hremarks : diagnostics.filter (·.isRemark) =
    (m.declarations.filter fun e => ¬IsUsed handlers e).map unusedRemark) (e : Resource × String) :
    diagnostics.count (unusedRemark e) =
      if IsUsed handlers e then 0 else m.declarations.count e := by
  have hremark : (unusedRemark e).isRemark = true := rfl
  rw [← List.count_filter (p := (·.isRemark)) hremark, hremarks,
    List.count_map_of_injective _ _ unusedRemark_injective]
  split_ifs with hused
  · rw [List.count_eq_zero, List.mem_filter]
    simp [hused]
  · exact List.count_filter (by simpa using hused)

lemma accounted_of_remarks
    (hdeclared : ∀ h ∈ handlers, ∀ s ∈ h.steps, ∀ b ∈ s.binding,
      ∃ resource, s.Uses (resource, b.name) ∧ (resource, b.name) ∈ m.declarations)
    (hremarks : diagnostics.filter (·.isRemark) =
      (m.declarations.filter fun e => ¬IsUsed handlers e).map unusedRemark) :
    Accounted m handlers diagnostics where
  declared := hdeclared
  remarks := hremarks
  divided := by
    intro e he
    rw [← List.count_pos_iff, count_unusedRemark hremarks e]
    split_ifs with hused
    · simp [hused]
    · simpa [hused, List.count_pos_iff] using he
  counted := by
    intro e _ hunused
    rw [count_unusedRemark hremarks e, if_neg hunused]

end

/-- A handler has a binding for steps that act on a resource only. -/
lemma exists_resource?_of_binding {api : Api} {h : Handler} {s : Step} {b : Binding}
    (hh : h ∈ Handler.ofApi api) (hs : s ∈ h.steps) (hb : b ∈ s.binding) :
    ∃ resource, s.action.resource? = some resource := by
  have hall : ∀ h ∈ Handler.ofApi api, ∀ s ∈ h.steps,
      s.binding.isSome = true → s.action.resource?.isSome = true := by
    rw [forall_steps_ofApi (q := fun _ => True)]
    · simp
    · intro entry index
      simp only [StepEntry.toStep, StepEntry.binding?, iff_true]
      cases entry.action.resource? <;> simp
  exact Option.isSome_iff_exists.mp (hall h hh s hs (Option.isSome_of_mem hb))

namespace Compilation

variable {inputs : Config} {c : Compilation}

/-- The remarks of a compilation with a manifest. -/
lemma remarks_of_compile (h : (new inputs).compile = .ok c) :
    c.diagnostics.filter (·.isRemark) =
      (inputs.bindings.declarations.filter fun e =>
        ¬IsUsed (Handler.ofApi inputs.api) e).map unusedRemark := by
  have hdoubts : (new inputs).doubts (Handler.ofApi inputs.api) = [] := by
    simp [doubts, doubtedReferences, new]
  have hdiagnostics : c.diagnostics =
      Lint.all.flatMap (·.findings inputs (Handler.ofApi inputs.api)) := by
    rw [diagnostics_of_runPhases h, show (new inputs).config = inputs from rfl, hdoubts]
    rfl
  rw [hdiagnostics, filter_isRemark_lints]

/-- **Used and unused bindings divide what is declared.**  After a compilation with a manifest that
succeeds, every step is bound to what is declared for its class, and each declaration is either used
by a step of its class or remarked on, once for each time that it is made and in the order of the
declarations. -/
theorem accounted_after_compile (h : (new inputs).compile = .ok c) :
    ∃ handlers, c.handlers = some handlers ∧
      Accounted inputs.bindings handlers c.diagnostics := by
  obtain ⟨-, -, hserved, -⟩ := acceptable_iff.mp (exists_runPhases_iff.mp ⟨c, h⟩)
  refine ⟨Handler.ofApi inputs.api, (compiled_and_errors_of_runPhases h).1.handlers,
    accounted_of_remarks ?_ (remarks_of_compile h)⟩
  intro handler hhandler s hs b hb
  obtain ⟨resource, hresource⟩ := exists_resource?_of_binding hhandler hs hb
  obtain ⟨b', hb', hname⟩ := hserved handler hhandler s hs resource hresource
  obtain rfl := Option.mem_unique hb hb'
  exact ⟨resource, ⟨hresource, by rw [hb]; rfl⟩, Manifest.mem_declarations.mpr (hname rfl)⟩

/-- Inputs whose manifest declares one name in all classes and another one twice.  A step inherits
the first name as a database, and a request names the other one in vain. -/
def overlapping : Config :=
  { (default : Config) with
    bindings := { Manifest.empty with
      d1Databases := [⟨"DATA", none, none⟩]
      kvNamespaces := [⟨"OLD", none, none⟩, ⟨"DATA", none, none⟩, ⟨"OLD", none, none⟩]
      r2Buckets := [⟨"DATA", none⟩] }
    api := { Api.empty with
      paths := .set .empty "/a" (.set .empty .get ⟨some "list", none, some
        [⟨none, none, .sql .query "SELECT 1" []⟩, ⟨some "DATA", none, .r2Get "k"⟩,
          ⟨some "OLD", none, .fetch "u" "GET" .empty none⟩], none⟩)
      defaults := ⟨some "DATA", none, none⟩ } }

theorem accounted_after_compile_overlapping : ∃ c handlers,
    (new overlapping).compile = .ok c ∧ c.handlers = some handlers ∧
    Accounted overlapping.bindings handlers c.diagnostics ∧
    (c.diagnostics.filter (·.isRemark)).map (·.text) =
      ["info: binding 'OLD' is not used by any operation (at kv_namespaces)",
        "info: binding 'DATA' is not used by any operation (at kv_namespaces)",
        "info: binding 'OLD' is not used by any operation (at kv_namespaces)"] := by
  obtain ⟨c, hcompile⟩ : ∃ c, (new overlapping).compile = .ok c := ⟨_, rfl⟩
  obtain ⟨handlers, hhandlers, haccounted⟩ := accounted_after_compile hcompile
  refine ⟨c, handlers, hcompile, hhandlers, haccounted, ?_⟩
  rw [remarks_of_compile hcompile]
  decide +kernel

end Compilation

end WorkerGen
