import Mathlib
import WorkerGen.Proofs.Compile.Undeclared
import WorkerGen.Proofs.Number.ReadBack
import WorkerGen.Proofs.Text

/-!
# The bindings of steps

An operation with steps becomes a handler, and its entries become the steps of that handler
(`Lowers`).  `BoundAs` lists the ways in which a step gets its binding: it has the one that its
entry names, or else the default of its class, and a request to another server has none.  After a
compilation that succeeds, each step is bound in one of these ways, so what an entry names is kept
unless it stands on a request.

These requests are read from the description a second time, by a lint.  `Api.steps` are the steps of
a description with their places; the lint warns about just those that are bound in vain, once each
and in document order (`findings_fetchBinding`).  No other report looks like such a warning
(`exists_ignoredWarnings`), and no two steps have the same place (`nodup_places`), which can be told
from its text (`StepPlace.text_injective`).
-/

namespace WorkerGen

/-! ## The steps of a description

A place has a path, a method and a number, and its text is made of the three.  A path may hold any
characters, those of the text between the three included, so the text is read from its end: what
stands in the last brackets is a number, and methods hold no dot. -/

/-- Where a step of a description stands. -/
structure StepPlace where
  path : String
  method : Method
  /-- Counted from zero. -/
  index : ℕ
deriving DecidableEq

/-- The text of a place. -/
def StepPlace.text (p : StepPlace) : String :=
  "paths." ++ p.path ++ "." ++ p.method.name ++ ".x-operations[" ++ toString p.index ++ "]"

/-- The steps of a description with their places, in document order. -/
def Api.steps (api : Api) : List (StepPlace × StepEntry) :=
  api.operations.flatMap fun (path, method, operation) =>
    (operation.steps.getD []).mapIdx fun index entry => (⟨path, method, index⟩, entry)

lemma StepPlace.toList_text (p : StepPlace) : p.text.toList =
    "paths.".toList ++ (((p.path.toList ++ '.' :: p.method.name.toList) ++
      ".x-operations".toList) ++ '[' :: (decimalDigits p.index ++ [']'])) := by
  simp [text, Nat.toString_eq_repr, Nat.toList_repr, decimalDigits]

/-- **A place can be told from its text**, whatever stands in the path. -/
theorem StepPlace.text_injective : Function.Injective StepPlace.text := by
  intro p q h
  have hlast : ∀ n : ℕ, '[' ∉ decimalDigits n ++ [']'] := by
    intro n hmem
    rcases List.mem_append.mp hmem with hdigit | hbracket
    · exact absurd (isDigit_of_mem_decimalDigits hdigit) (by decide)
    · exact absurd (List.mem_singleton.mp hbracket) (by decide)
  have hdot : ∀ m : Method, '.' ∉ m.name.toList := fun m hmem =>
    absurd (Method.isLetter_of_mem_name hmem) (by decide)
  have htext := congrArg String.toList h
  rw [toList_text, toList_text] at htext
  obtain ⟨hoperation, hindex⟩ :=
    Text.append_cons_inj_last (hlast _) (hlast _) (List.append_cancel_left htext)
  obtain ⟨hpath, hmethod⟩ :=
    Text.append_cons_inj_last (hdot _) (hdot _) (List.append_cancel_right hoperation)
  have hpath := String.toList_inj.mp hpath
  have hmethod := Method.name_injective (String.toList_inj.mp hmethod)
  have hindex := decimalDigits_injective (List.append_cancel_right hindex)
  cases p
  cases q
  simp_all

/-- **No two steps of a description have the same place.** -/
theorem nodup_places (api : Api) : (api.steps.map (·.1)).Nodup := by
  rw [Api.steps, List.map_flatMap, List.nodup_flatMap]
  constructor
  · rintro ⟨path, method, operation⟩ -
    refine List.nodup_iff_injective_getElem.mpr fun i j h => Fin.ext ?_
    simpa using h
  · refine (List.pairwise_map.mp (nodup_operations api)).imp fun {o o'} hne => ?_
    intro place hplace hplace'
    obtain ⟨s, hs, rfl⟩ := List.mem_map.mp hplace
    obtain ⟨s', hs', hsame⟩ := List.mem_map.mp hplace'
    obtain ⟨i, hi, rfl⟩ := List.mem_mapIdx.mp hs
    obtain ⟨j, hj, rfl⟩ := List.mem_mapIdx.mp hs'
    obtain ⟨hpath, hmethod, -⟩ := StepPlace.mk.inj hsame
    exact hne (Prod.ext hpath.symm hmethod.symm)

/-! ## Requests that are bound in vain

The lint goes through handlers, and the statement is about entries of the description.  What an
entry names is lost in its step if that is a request, so the lint cannot look at the steps alone. -/

/-- Whether an action is a request to another server. -/
def Action.isRequest : Action → Bool
  | .fetch .. => true
  | _ => false

/-- The actions that act on no resource are the requests to other servers. -/
lemma Action.resource?_eq_none_iff {action : Action} :
    action.resource? = none ↔ action.isRequest = true := by
  cases action <;> simp [resource?, isRequest]

/-- The binding that an entry names in vain. -/
def StepEntry.ignored? (entry : StepEntry) : Option String :=
  if entry.action.isRequest then entry.binding else none

/-- The warning that the binding of the step at a place is ignored. -/
def ignoredWarning (place : StepPlace) (name : String) : Diagnostic :=
  ⟨.warning, "validate", "binding '" ++ name ++ "' on a fetch step is ignored", some place.text⟩

/-- The warnings about bindings that are ignored, in document order. -/
def Api.ignoredWarnings (api : Api) : List Diagnostic :=
  api.steps.filterMap fun (place, entry) => entry.ignored?.map (ignoredWarning place)

lemma fetchBindingOf?_eq (path : String) (method : Method) (index : ℕ) (entry : StepEntry) :
    Lint.fetchBindingOf? path method index entry =
      entry.ignored?.map (ignoredWarning ⟨path, method, index⟩) := by
  obtain ⟨binding, result, action⟩ := entry
  cases action <;> cases binding <;> rfl

/-- The lint for bindings on requests goes through the steps of the description in their order. -/
lemma findings_fetchBinding (config : Config) (handlers : List Handler) :
    Lint.fetchBinding.findings config handlers = config.api.ignoredWarnings := by
  rw [Api.ignoredWarnings, Api.steps, List.filterMap_flatMap]
  refine List.flatMap_congr fun o _ => ?_
  simp only [fetchBindingOf?_eq, List.mapIdx_eq_zipIdx_map, List.filterMap_map]
  rfl

lemma isOnOperation_ignoredWarning (place : StepPlace) (name : String) :
    (ignoredWarning place name).IsOnOperation :=
  ⟨rfl, place.path ++ "." ++ place.method.name ++ ".x-operations[" ++ toString place.index ++ "]",
    by simp [ignoredWarning, StepPlace.text, String.append_assoc]⟩

/-- The finding about an operation without steps begins with its id in quotes, and a warning about
an ignored binding does not. -/
lemma emptySequence_ne_ignoredWarning {config : Config} {handlers : List Handler} {d : Diagnostic}
    (hd : d ∈ Lint.emptySequence.findings config handlers) (place : StepPlace) (name : String) :
    d ≠ ignoredWarning place name := by
  rintro rfl
  obtain ⟨h, -, hsome⟩ := List.mem_filterMap.mp hd
  rw [Lint.emptySequenceOf?, Option.ite_none_right_eq_some] at hsome
  have hmessage := congrArg (fun d : Diagnostic => d.message.toList.head?)
    (Option.some_inj.mp hsome.2)
  simp [Lint.finding, ignoredWarning] at hmessage

lemma unusedBinding_ne_ignoredWarning {config : Config} {handlers : List Handler} {d : Diagnostic}
    (hd : d ∈ Lint.unusedBinding.findings config handlers) (place : StepPlace) (name : String) :
    d ≠ ignoredWarning place name := by
  rintro rfl
  exact absurd (isWarning_unusedBinding hd) (by simp [Diagnostic.isWarning, ignoredWarning])

/-- Among the reports of a validation, the warnings about ignored bindings stand together, and no
other report is one. -/
lemma exists_ignoredWarnings (config : Config) (handlers : List Handler)
    (references : List Reference) : ∃ before after,
    references.map Phase.referenceWarning ++ Lint.all.flatMap (·.findings config handlers) =
        before ++ config.api.ignoredWarnings ++ after ∧
      ∀ d ∈ before ++ after, ∀ place name, d ≠ ignoredWarning place name := by
  refine ⟨references.map Phase.referenceWarning ++ Lint.emptySequence.findings config handlers,
    Lint.unusedBinding.findings config handlers, ?_, ?_⟩
  · simp [Lint.all, findings_fetchBinding]
  · intro d hd place name
    simp only [List.mem_append] at hd
    rcases hd with (hreference | hempty) | hunused
    · obtain ⟨r, -, rfl⟩ := List.mem_map.mp hreference
      exact ((isOnOperation_ignoredWarning place name).ne_referenceWarning r).symm
    · exact emptySequence_ne_ignoredWarning hempty place name
    · exact unusedBinding_ne_ignoredWarning hunused place name

/-! ## How steps are bound

Handlers and their steps are compared with operations and their entries position by position, by
`Forall₂`, so that nothing can be left out or change its place. -/

/-- How an entry is bound: what its step is bound to, given the defaults of the description. -/
inductive BoundAs (defaults : Defaults) (entry : StepEntry) : Option Binding → Prop
  /-- The entry names a binding. -/
  | named {resource : Resource} {name : String} (acts : entry.action.resource? = some resource)
      (name_eq : entry.binding = some name) : BoundAs defaults entry (some ⟨name, .explicit⟩)
  /-- It names none, and its class has a default. -/
  | inherited {resource : Resource} {name : String}
      (acts : entry.action.resource? = some resource) (unnamed : entry.binding = none)
      (default_eq : defaults.of resource = some name) :
      BoundAs defaults entry (some ⟨name, .inherited⟩)
  /-- A request to another server has no binding, whatever it names. -/
  | request (isRequest : entry.action.isRequest = true) : BoundAs defaults entry none

/-- What a step has from its entry. -/
structure Follows (defaults : Defaults) (entry : StepEntry) (s : Step) : Prop where
  action : s.action = entry.action
  binding : BoundAs defaults entry s.binding

/-- A handler has the path and method of an operation, and a step for each of its entries. -/
structure Lowers (defaults : Defaults) (o : String × Method × Operation) (h : Handler) : Prop where
  path : h.path = o.1
  method : h.method = o.2.1
  steps : ∃ entries, o.2.2.steps = some entries ∧ List.Forall₂ (Follows defaults) entries h.steps

/-- An entry that acts on a resource is bound if there is a binding for it at all. -/
lemma follows_toStep {defaults : Defaults} {entry : StepEntry} (hbound : ¬entry.IsUnbound defaults)
    (index : ℕ) : Follows defaults entry (entry.toStep defaults index) := by
  refine ⟨rfl, ?_⟩
  rw [StepEntry.toStep, StepEntry.binding?]
  cases hresource : entry.action.resource? with
  | none => exact .request (Action.resource?_eq_none_iff.mp hresource)
  | some resource =>
      cases hname : entry.binding with
      | some name => exact .named hresource hname
      | none =>
          have hdefault : defaults.of resource ≠ none := fun hnone =>
            hbound ⟨resource, hresource, hname, hnone⟩
          obtain ⟨name, hname'⟩ := Option.ne_none_iff_exists'.mp hdefault
          simp only [hname', Option.map_some]
          exact .inherited hresource hname hname'

lemma forall₂_mapIdx {α β : Type} {R : α → β → Prop} {f : ℕ → α → β} {s : List α}
    (h : ∀ index, ∀ a ∈ s, R a (f index a)) : List.Forall₂ R s (s.mapIdx f) := by
  induction s generalizing f with
  | nil => exact .nil
  | cons a s ih =>
      rw [List.mapIdx_cons]
      exact .cons (h 0 a List.mem_cons_self)
        (ih fun index b hb => h (index + 1) b (List.mem_cons_of_mem _ hb))

lemma forall₂_filterMap {α β : Type} {R : α → β → Prop} {f : α → Option β} {s : List α}
    (h : ∀ a ∈ s, ∀ b, f a = some b → R a b) :
    List.Forall₂ R (s.filter fun a => (f a).isSome) (s.filterMap f) := by
  induction s with
  | nil => exact .nil
  | cons a s ih =>
      have hrest := ih fun b hb => h b (List.mem_cons_of_mem _ hb)
      cases hfa : f a with
      | none => simpa [hfa] using hrest
      | some b => simpa [hfa] using List.Forall₂.cons (h a List.mem_cons_self b hfa) hrest

/-- The handlers of a description follow its operations that have steps. -/
lemma lowers_ofApi {api : Api} (hbound : ∀ o ∈ api.operations, ∀ entries ∈ o.2.2.steps,
      ∀ entry ∈ entries, ¬entry.IsUnbound api.defaults) :
    List.Forall₂ (Lowers api.defaults) (api.operations.filter fun o => o.2.2.steps.isSome)
      (Handler.ofApi api) := by
  have hsome : ∀ o : String × Method × Operation,
      (Handler.ofOperation? api.defaults o.1 o.2.1 o.2.2).isSome = o.2.2.steps.isSome := by
    intro o
    simp [Handler.ofOperation?]
  simp only [← hsome]
  refine forall₂_filterMap fun o ho h hh => ?_
  obtain ⟨entries, hentries, rfl⟩ := Option.map_eq_some_iff.mp hh
  refine ⟨rfl, rfl, entries, hentries, forall₂_mapIdx fun index entry hentry => ?_⟩
  exact follows_toStep (hbound o ho entries hentries entry hentry) index

/-! ## Compilations

A compilation with a manifest and one without end with the same handlers, and the warnings about
bindings that are ignored are made in both. -/

/-- How the bindings of a description are found again in the handlers and the diagnostics of a
compilation. -/
structure Carried (api : Api) (handlers : List Handler) (diagnostics : List Diagnostic) :
    Prop where
  /-- The handlers follow the operations with steps, in document order. -/
  handlers : List.Forall₂ (Lowers api.defaults)
    (api.operations.filter fun o => o.2.2.steps.isSome) handlers
  /-- The warnings about ignored bindings stand together in document order, and there are no
  others. -/
  warnings : ∃ before after, diagnostics = before ++ api.ignoredWarnings ++ after ∧
    ∀ d ∈ before ++ after, ∀ place name, d ≠ ignoredWarning place name
  /-- Each warning is about one step: no two steps have places with the same text. -/
  places : (api.steps.map fun s => s.1.text).Nodup

namespace Compilation

/-- **No binding is lost without a warning.**  After a compilation that succeeds, with or without a
manifest, the handlers follow the operations that have steps, and the steps their entries: each has
the binding that its entry names, or else the default of its class.  A request to another server has
none, and if its entry names one, a single warning at the place of the entry says so. -/
theorem carried_after_compile {inputs : Config} {declared : Bool} {c : Compilation}
    (h : ((new inputs).declare declared).compile = .ok c) :
    ∃ handlers, c.handlers = some handlers ∧ Carried inputs.api handlers c.diagnostics := by
  have hcompiled := compiled_of_runPhases h
  have hbound := (forall_steps_ofApi fun _ _ => isBound_toStep_iff).mp fun handler hhandler s hs =>
    List.all_eq_true.mp (hcompiled.isBound handler hhandler) s hs
  have hdiagnostics := diagnostics_of_runPhases h
  obtain ⟨before, after, hreports, hothers⟩ := exists_ignoredWarnings inputs
    (Handler.ofApi inputs.api)
    (doubtedReferences declared inputs.bindings (Handler.ofApi inputs.api))
  refine ⟨_, hcompiled.handlers, lowers_ofApi hbound,
    ⟨before, after, hdiagnostics.trans hreports, hothers⟩, ?_⟩
  have hplaces := (nodup_places inputs.api).map StepPlace.text_injective
  rwa [List.map_map] at hplaces

/-- Inputs with two operations.  The first one has steps of all three classes and two requests, the
last of which names a binding in vain; the second one has a request that does, and one operation is
passed through. -/
def mixed : Config :=
  { (default : Config) with
    api := { Api.empty with
      paths := .set (.set (.set .empty "/a" (.set .empty .get ⟨some "first", none, some
          [⟨none, none, .sql .query "SELECT 1" []⟩, ⟨some "AUDIT", none, .sql .run "DELETE" []⟩,
            ⟨none, none, .kvDelete "k"⟩, ⟨some "FILES", none, .r2Get "k"⟩,
            ⟨none, none, .fetch "u" "GET" .empty none⟩,
            ⟨some "MAIN", none, .fetch "u" "GET" .empty none⟩], none⟩))
          "/b" (.set .empty .put .blank))
        "/c" (.set .empty .post ⟨some "second", none, some
          [⟨some "FILES", none, .fetch "u" "GET" .empty none⟩], none⟩)
      defaults := ⟨some "MAIN", some "CACHE", none⟩ } }

theorem carried_after_compile_mixed : ∃ c handlers,
    ((new mixed).declare false).compile = .ok c ∧ c.handlers = some handlers ∧
    Carried mixed.api handlers c.diagnostics ∧
    handlers.map (·.steps.map (·.binding)) =
      [[some ⟨"MAIN", .inherited⟩, some ⟨"AUDIT", .explicit⟩, some ⟨"CACHE", .inherited⟩,
        some ⟨"FILES", .explicit⟩, none, none], [none]] ∧
    mixed.api.ignoredWarnings.map (·.text) =
      ["warning: binding 'MAIN' on a fetch step is ignored (at paths./a.get.x-operations[5])",
        "warning: binding 'FILES' on a fetch step is ignored (at paths./c.post.x-operations[0])"
      ] := by
  obtain ⟨c, hcompile⟩ : ∃ c, ((new mixed).declare false).compile = .ok c := ⟨_, rfl⟩
  obtain ⟨handlers, hhandlers, hcarried⟩ := carried_after_compile hcompile
  have hlowered := (compiled_of_runPhases hcompile).handlers
  obtain rfl := Option.some.inj (hhandlers.symm.trans hlowered)
  exact ⟨c, _, hcompile, hhandlers, hcarried, by decide +kernel, by decide +kernel⟩

end Compilation

end WorkerGen
