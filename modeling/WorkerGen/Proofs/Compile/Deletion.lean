import Mathlib
import WorkerGen.Proofs.Compile.Dispatch
import WorkerGen.Proofs.Compile.Validation
import WorkerGen.Proofs.Worker.Placement

/-!
# Deleting operations

Some of the operations of a description are deleted, and the rest keeps its order and its defaults.
Nothing that is made of an operation depends on its neighbours: the handlers that remain are those
of before (`ofApi_of_isPart`), and so are the routes, since sorting keeps the order of what is left
(`table_of_isPart`).  Whatever the checks accept they accept without some of the handlers
(`exists_runPhases_iff`), so a compilation that succeeds still does, and every handler that is left
has the file that it had (`regeneration_is_local`).

A part of a description is any other one whose operations are a sublist with the same defaults
(`Api.IsPart`); that any set of operations can be deleted is shown beside it (`Api.without`).  What
the checks look at is then either about single handlers, or about no two of them being alike, and
neither can fail for fewer of them.

The global files of a worker do change, since they list its handlers and routes.
-/

namespace WorkerGen

open scoped List

/-! ## Lists with distinct keys

Sorting a part of a list is taking that part of the sorted list, by induction on the list.  It rests
on the sort being stable: a new element goes before all that it does not exceed. -/

section
variable {α κ : Type} [DecidableEq κ]

/-- A part of a list is what has its keys, if no two elements have the same key. -/
lemma eq_filter_of_sublist {key : α → κ} : ∀ {part whole : List α}, part <+ whole →
    (whole.map key).Nodup → part = whole.filter fun a => key a ∈ part.map key
  | _, _, .slnil, _ => rfl
  | part, a :: whole, .cons _ hsub, hnodup => by
      obtain ⟨hnew, hrest⟩ := List.nodup_cons.mp hnodup
      have hgone : key a ∉ part.map key := fun hmem => hnew ((hsub.map key).subset hmem)
      rw [List.filter_cons_of_neg (by simpa using hgone)]
      exact eq_filter_of_sublist hsub hrest
  | a :: part, _ :: whole, .cons_cons _ hsub, hnodup => by
      obtain ⟨hnew, hrest⟩ := List.nodup_cons.mp hnodup
      rw [List.filter_cons_of_pos (by simp)]
      refine congrArg (a :: ·) ((eq_filter_of_sublist hsub hrest).trans ?_)
      refine List.filter_congr fun b hb => ?_
      have hne : key b ≠ key a := fun heq => hnew (heq ▸ List.mem_map_of_mem hb)
      simp [hne]

section
variable {le : α → α → Bool} (htrans : ∀ a b c, le a b → le b c → le a c)
  (htotal : ∀ a b, le a b || le b a)
include htrans htotal

/-- A sorted list with one more element: it comes before what it does not exceed. -/
lemma mergeSort_cons_eq (a : α) (s : List α) : (a :: s).mergeSort le =
    (s.mergeSort le).filter (!le a ·) ++ a :: (s.mergeSort le).filter (le a ·) := by
  obtain ⟨before, after, hcons, hsort, hbefore⟩ := List.mergeSort_cons htrans htotal a s
  have hafter : ∀ b ∈ after, le a b := by
    have hsorted := List.pairwise_mergeSort htrans htotal (a :: s)
    rw [hcons, List.pairwise_append] at hsorted
    exact (List.pairwise_cons.mp hsorted.2.1).1
  have hnone : before.filter (le a ·) = [] :=
    List.filter_eq_nil_iff.mpr fun b hb => by simpa using hbefore b hb
  have hnone' : after.filter (!le a ·) = [] :=
    List.filter_eq_nil_iff.mpr fun b hb => by simpa using hafter b hb
  rw [hcons, hsort, List.filter_append, List.filter_append, hnone, hnone',
    List.filter_eq_self.mpr hbefore, List.filter_eq_self.mpr hafter, List.append_nil,
    List.nil_append]

/-- **Sorting keeps the order of what is left of a list.** -/
theorem mergeSort_filter (p : α → Bool) : ∀ s : List α,
    (s.filter p).mergeSort le = (s.mergeSort le).filter p
  | [] => by simp
  | a :: s => by
      have ih := mergeSort_filter p s
      cases ha : p a with
      | false =>
          obtain ⟨before, after, hcons, hsort, -⟩ := List.mergeSort_cons htrans htotal a s
          rw [List.filter_cons_of_neg (by simp [ha]), ih, hcons, hsort, List.filter_append,
            List.filter_append, List.filter_cons_of_neg (by simp [ha])]
      | true =>
          rw [List.filter_cons_of_pos ha, mergeSort_cons_eq htrans htotal, ih,
            mergeSort_cons_eq htrans htotal, List.filter_append, List.filter_cons_of_pos ha]
          simp only [List.filter_filter, Bool.and_comm]

end

end

/-! ## Parts of descriptions

Deleting leaves the paths that have an operation left, so that a part may have fewer paths too. -/

/-- Whether a description has an operation for a path and method. -/
def Api.declares (api : Api) (path : String) (method : Method) : Bool :=
  api.operations.any fun o => o.1 == path && o.2.1 == method

/-- A description with some of the operations of another, in their order, and its defaults. -/
structure Api.IsPart (part api : Api) : Prop where
  defaults : part.defaults = api.defaults
  operations : part.operations <+ api.operations

/-- The listing without the keys that do not satisfy a condition. -/
def Listing.restrict {κ α : Type} (l : Listing κ α) (p : κ → Bool) : Listing κ α :=
  ⟨l.entries.filter (p ·.1), l.distinct.sublist (List.filter_sublist.map _)⟩

/-- The description without some operations. -/
def Api.without (api : Api) (gone : String → Method → Bool) : Api :=
  { api with paths :=
    ⟨api.paths.entries.map fun e => (e.1, e.2.restrict fun method => !gone e.1 method), by
      rw [List.map_map]; exact api.paths.distinct⟩ }

lemma Api.operations_without (api : Api) (gone : String → Method → Bool) :
    (api.without gone).operations = api.operations.filter fun o => !gone o.1 o.2.1 := by
  simp only [Api.operations, Api.without, Listing.restrict, List.flatMap_map, List.filter_flatMap,
    List.filter_map]
  rfl

/-- Any set of operations can be deleted. -/
theorem Api.isPart_without (api : Api) (gone : String → Method → Bool) :
    (api.without gone).IsPart api :=
  ⟨rfl, api.operations_without gone ▸ List.filter_sublist⟩

section
variable {part api : Api}

/-- The operations of a part are those for its paths and methods. -/
lemma operations_of_isPart (h : part.IsPart api) :
    part.operations = api.operations.filter fun o => part.declares o.1 o.2.1 := by
  refine (eq_filter_of_sublist h.operations (nodup_operations api)).trans ?_
  refine List.filter_congr fun o _ => ?_
  rw [Bool.eq_iff_iff]
  simp [Api.declares]

/-- **The handlers of a part are those that remain.** -/
theorem ofApi_of_isPart (h : part.IsPart api) : Handler.ofApi part =
    (Handler.ofApi api).filter fun handler => part.declares handler.path handler.method := by
  rw [Handler.ofApi, Handler.ofApi, operations_of_isPart h, h.defaults, List.filter_filterMap,
    List.filterMap_filter]
  refine List.filterMap_congr ?_
  rintro ⟨path, method, operation⟩ -
  dsimp only
  cases hsome : Handler.ofOperation? api.defaults path method operation with
  | none => simp
  | some handler =>
      obtain ⟨hpath, hmethod, -, -⟩ := ofOperation?_eq_some hsome
      simp [Option.filter, hpath, hmethod]

/-- **The routing table of a part has the routes that remain**, in their order. -/
theorem table_of_isPart (h : part.IsPart api) : Route.table part (Handler.ofApi part) =
    (Route.table api (Handler.ofApi api)).filter fun r => part.declares r.path r.method := by
  have hroutes : routesOf part =
      (routesOf api).filter fun r => part.declares r.path r.method := by
    rw [routesOf, routesOf, operations_of_isPart h, h.defaults, List.filter_map]
    rfl
  rw [table_eq, table_eq, hroutes, mergeSort_filter paramCount_trans paramCount_total]

end

/-! ## Checks

A list that repeats nothing has no sublist that does, and references are collected handler by
handler. -/

/-- Ids that are accepted are accepted without some of the handlers. -/
lemma checkIds_of_sublist {few all : List Handler} (h : few <+ all) (hids : checkIds all = .ok ()) :
    checkIds few = .ok () := by
  obtain ⟨hplain, hnodup⟩ := checkIds_eq_ok_iff.mp hids
  exact checkIds_eq_ok_iff.mpr
    ⟨fun handler hmem => hplain handler (h.subset hmem), hnodup.sublist (h.map _)⟩

/-- The references of some of the handlers that fail a compilation. -/
lemma fatalReferences_of_sublist {few all : List Handler} {declared : Bool} {m : Manifest}
    (h : few <+ all) (hnone : Phase.fatalReferences declared (unresolvedReferences all m) = []) :
    Phase.fatalReferences declared (unresolvedReferences few m) = [] := by
  have hsub : unresolvedReferences few m <+ unresolvedReferences all m :=
    (h.flatMap _).filter _
  cases declared with
  | true => exact List.sublist_nil.mp (hnone ▸ hsub)
  | false => exact List.sublist_nil.mp (hnone ▸ hsub.filter _)

/-! ## Compilations

What a compilation needs is stated of its handlers, so that it can be compared with what one with
fewer handlers needs. -/

namespace Compilation

/-- What a validation needs to pass. -/
structure Acceptable (c : Compilation) (handlers : List Handler) : Prop where
  ids : checkIds handlers = .ok ()
  names : checkResultNames handlers = .ok ()
  references : Phase.fatalReferences c.declared
    (unresolvedReferences handlers c.config.bindings) = []
  errors : c.errors = []

lemma Acceptable.validate {c : Compilation} {handlers : List Handler} (h : c.Acceptable handlers)
    (lints : List Lint) : ∃ c', Phase.validateHandlers lints c handlers = (c', none) := by
  have hrejected : rejectedReferences c.declared c.config.bindings handlers = [] := by
    rw [← fatalReferences_eq, h.references]
  rw [validateHandlers_of_checked lints h.ids h.names, hrejected]
  simp [h.errors]

/-- A compilation lowers the operations and checks the handlers, and then makes the table. -/
lemma runPhases_phases (c₀ : Compilation) (lints : List Lint) :
    c₀.runPhases (phases lints) =
      match Phase.validateHandlers lints
        { c₀ with handlers := some (Handler.ofApi c₀.config.api) }
        (Handler.ofApi c₀.config.api) with
      | (_, some e) => .error e
      | (c, none) => c.runPhases [.analyze] :=
  rfl

/-- **Which compilations succeed**: those whose handlers pass all checks, if no error has been
reported before. -/
theorem exists_runPhases_iff {c₀ : Compilation} {lints : List Lint} :
    (∃ c, c₀.runPhases (phases lints) = .ok c) ↔
      c₀.Acceptable (Handler.ofApi c₀.config.api) := by
  rw [runPhases_phases]
  constructor
  · rintro ⟨c, hc⟩
    split at hc
    case h_1 => exact absurd hc (by simp)
    case h_2 c' hvalidate =>
      obtain ⟨hids, hnames, hfatal, ⟨reports, rfl⟩, herrors⟩ := validateHandlers_eq_none hvalidate
      rw [errors, report, List.filter_append] at herrors
      exact ⟨hids, hnames, hfatal, (List.append_eq_nil_iff.mp herrors).1⟩
  · intro h
    have hstart : Acceptable { c₀ with handlers := some (Handler.ofApi c₀.config.api) }
        (Handler.ofApi c₀.config.api) := ⟨h.ids, h.names, h.references, h.errors⟩
    obtain ⟨c', hvalidate⟩ := hstart.validate lints
    obtain ⟨-, -, -, ⟨reports, rfl⟩, -⟩ := validateHandlers_eq_none hvalidate
    rw [hvalidate]
    exact ⟨_, rfl⟩

/-- What is accepted is accepted without some of the handlers. -/
lemma Acceptable.of_sublist {c : Compilation} {few all : List Handler} (h : c.Acceptable all)
    (hsub : few <+ all) : c.Acceptable few where
  ids := checkIds_of_sublist hsub h.ids
  names := checkResultNames_eq_ok_iff.mpr fun handler hmem =>
    checkResultNames_eq_ok_iff.mp h.names handler (hsub.subset hmem)
  references := fatalReferences_of_sublist hsub h.references
  errors := h.errors

/-- A compilation has made a worker with these files. -/
def Renders (c : Compilation) (files : List OutputFile) : Prop :=
  ∃ routes handlers, c.routes = some routes ∧ c.handlers = some handlers ∧
    Worker.target.render c.config routes handlers = .ok files

/-- The worker of a compilation that succeeds has one file at the path of each handler, and it
depends on the handler alone. -/
lemma exists_renders {c₀ c : Compilation} {lints : List Lint}
    (h : c₀.runPhases (phases lints) = .ok c) : ∃ files, c.Renders files ∧
      ∀ handler ∈ Handler.ofApi c₀.config.api,
        files.filter (·.path = Worker.target.handlerPath handler.id)
          = [Worker.handlerFile handler] := by
  obtain ⟨hcompiled, -⟩ := compiled_and_errors_of_runPhases h
  have hplaced : Worker.Placed (Handler.ofApi c₀.config.api) (Worker.globalFiles c.config
      (Route.table c₀.config.api (Handler.ofApi c₀.config.api)) ++
        (Handler.ofApi c₀.config.api).map Worker.handlerFile) :=
    Worker.placed_of_ids hcompiled.isPlainFileName hcompiled.nodup_ids
  refine ⟨_, ⟨_, _, hcompiled.routes, hcompiled.handlers,
    Worker.render_of_compiled hcompiled⟩, fun handler hmem => ?_⟩
  have hnodup : (List.map OutputFile.path (_ ++ _)).Nodup :=
    List.Nodup.of_map Path.steps (by rw [List.map_map]; exact hplaced.distinct)
  have hfile := List.mem_append_right
    (Worker.globalFiles c.config (Route.table c₀.config.api (Handler.ofApi c₀.config.api)))
    (List.mem_map_of_mem (f := Worker.handlerFile) hmem)
  have honly := eq_filter_of_sublist (List.singleton_sublist.mpr hfile) hnodup
  simpa [Worker.handlerFile] using honly.symm

end Compilation

/-! ## Regeneration

All that has been shown of the parts, in terms of the descriptions themselves.  What had been
reported before the compilation may be anything, and decides about its success together with the
checks. -/

open Compilation in
/-- **Regeneration is local.**  If some operations are deleted, the handlers and the routes are
those of before that remain, in their order; and if the compilation succeeded, whatever had been
reported before it, it still does, and every handler that remains has the file that it had. -/
theorem regeneration_is_local {part api : Api} (h : part.IsPart api) :
    (Handler.ofApi part = (Handler.ofApi api).filter fun handler =>
      part.declares handler.path handler.method) ∧
    (Route.table part (Handler.ofApi part) = (Route.table api (Handler.ofApi api)).filter fun r =>
      part.declares r.path r.method) ∧
    ∀ (start c : Compilation) (lints : List Lint),
      (start.withApi api).runPhases (phases lints) = .ok c →
        ∃ c' files files', (start.withApi part).runPhases (phases lints) = .ok c' ∧
          c.Renders files ∧ c'.Renders files' ∧
          ∀ handler ∈ Handler.ofApi part, ∃ file,
            files.filter (·.path = Worker.target.handlerPath handler.id) = [file] ∧
            files'.filter (·.path = Worker.target.handlerPath handler.id) = [file] := by
  refine ⟨ofApi_of_isPart h, table_of_isPart h, fun start c lints hcompile => ?_⟩
  have hsub : Handler.ofApi part <+ Handler.ofApi api := ofApi_of_isPart h ▸ List.filter_sublist
  have haccepted := exists_runPhases_iff.mp ⟨c, hcompile⟩
  have hfewer : (start.withApi part).Acceptable (Handler.ofApi part) :=
    let few := haccepted.of_sublist hsub
    ⟨few.ids, few.names, few.references, few.errors⟩
  obtain ⟨c', hcompile'⟩ := exists_runPhases_iff.mpr hfewer
  obtain ⟨files, hfiles, hhandlers⟩ := exists_renders hcompile
  obtain ⟨files', hfiles', hhandlers'⟩ := exists_renders hcompile'
  exact ⟨c', files, files', hcompile', hfiles, hfiles', fun handler hmem =>
    ⟨_, hhandlers handler (hsub.subset hmem), hhandlers' handler hmem⟩⟩

/-- A description with a path for one handler and a more specific one for another. -/
def users : Api :=
  { Api.empty with
    paths := .set (.set .empty "/users/\x7bid\x7d" (.set .empty .get
        ⟨some "user", none, some [⟨none, none, .kvGet "k" .text⟩], none⟩))
      "/users/me" (.set .empty .get
        ⟨some "me", none, some [⟨none, none, .kvGet "m" .text⟩], none⟩)
    defaults := ⟨none, some "CACHE", none⟩ }

/-- Without the second operation, the handler of the first has the file that it had. -/
theorem regeneration_is_local_users : ∃ c c' files files',
    (((Compilation.new default).declare false).withApi users).compile = .ok c ∧
    (((Compilation.new default).declare false).withApi
      (users.without fun path _ => path == "/users/me")).compile = .ok c' ∧
    c.Renders files ∧ c'.Renders files' ∧
    ∃ file, files.filter (·.path = Worker.target.handlerPath "user") = [file] ∧
      files'.filter (·.path = Worker.target.handlerPath "user") = [file] := by
  have hpart := users.isPart_without fun path _ => path == "/users/me"
  obtain ⟨c, hcompile⟩ : ∃ c,
      (((Compilation.new default).declare false).withApi users).compile = .ok c := ⟨_, rfl⟩
  obtain ⟨c', files, files', hcompile', hfiles, hfiles', hfile⟩ :=
    (regeneration_is_local hpart).2.2 _ c Lint.all hcompile
  obtain ⟨handler, hmem, hid⟩ : ∃ handler ∈ Handler.ofApi
      (users.without fun path _ => path == "/users/me"), handler.id = "user" := by decide +kernel
  exact ⟨c, c', files, files', hcompile, hcompile', hfiles, hfiles', hid ▸ hfile handler hmem⟩

end WorkerGen
