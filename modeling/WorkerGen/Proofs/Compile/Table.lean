import Mathlib
import WorkerGen.Handler

/-!
# Operations, handlers and routes

A description has at most one operation for a path and method (`nodup_operations`).  So each handler
can be traced to its operation (`mem_ofApi`), the handler that is looked up for an operation is its
own (`handlerFor?_eq`), and the routing table has for every operation one route, which leads to the
handler of that operation or, if it has no steps, to none (`table_perm`).

The paths of a description are distinct, and so are the methods under each of them.  Both come with
the listings that hold them, so none of this is an assumption about a description.
-/

namespace WorkerGen

variable {api : Api} {path : String} {method : Method} {operation : Operation}

/-! ## Operations -/

/-- **A path and method have at most one operation.** -/
theorem nodup_operations (api : Api) : (api.operations.map fun o => (o.1, o.2.1)).Nodup := by
  have hkeys : (api.operations.map fun o => (o.1, o.2.1)) =
      api.paths.entries.flatMap fun e => (e.2.entries.map (·.1)).map (Prod.mk e.1) := by
    simp [Api.operations, List.map_flatMap, Function.comp_def]
  rw [hkeys, List.nodup_flatMap]
  constructor
  · intro e _
    exact e.2.distinct.map (Prod.mk_right_injective e.1)
  · refine (List.pairwise_map.mp api.paths.distinct).imp fun {e f} hne => ?_
    rintro ⟨path, method⟩ he hf
    obtain ⟨_, -, he⟩ := List.mem_map.mp he
    obtain ⟨_, -, hf⟩ := List.mem_map.mp hf
    exact hne ((Prod.mk.inj he).1.trans (Prod.mk.inj hf).1.symm)

lemma operation_unique {first second : Operation} (h₁ : (path, method, first) ∈ api.operations)
    (h₂ : (path, method, second) ∈ api.operations) : first = second := by
  have hinj := List.inj_on_of_nodup_map (nodup_operations api) h₁ h₂ rfl
  exact (Prod.mk.inj (Prod.mk.inj hinj).2).2

/-! ## Handlers -/

/-- A handler belongs to an operation with its path and method. -/
lemma mem_ofApi {h : Handler} : h ∈ Handler.ofApi api ↔ ∃ path method operation,
    (path, method, operation) ∈ api.operations ∧
      Handler.ofOperation? api.defaults path method operation = some h := by
  simp [Handler.ofApi, List.mem_filterMap]

lemma ofOperation?_eq_some {defaults : Defaults} {h : Handler}
    (hsome : Handler.ofOperation? defaults path method operation = some h) :
    h.path = path ∧ h.method = method ∧ h.id = handlerId operation.id path method ∧
      operation.steps.isSome := by
  obtain ⟨steps, hsteps, rfl⟩ := Option.map_eq_some_iff.mp hsome
  exact ⟨rfl, rfl, rfl, by rw [hsteps]; rfl⟩

/-- **A path and method have at most one handler.** -/
theorem handler_unique {g h : Handler} (hg : g ∈ Handler.ofApi api) (hh : h ∈ Handler.ofApi api)
    (hpath : g.path = h.path) (hmethod : g.method = h.method) : g = h := by
  obtain ⟨p, m, o, hmem, hsome⟩ := mem_ofApi.mp hg
  obtain ⟨p', m', o', hmem', hsome'⟩ := mem_ofApi.mp hh
  obtain ⟨rfl, rfl, -, -⟩ := ofOperation?_eq_some hsome
  obtain ⟨rfl, rfl, -, -⟩ := ofOperation?_eq_some hsome'
  rw [hpath, hmethod] at hmem hsome
  rw [operation_unique hmem hmem', hsome'] at hsome
  exact (Option.some_inj.mp hsome).symm

/-! ## Routes -/

/-- The route of an operation. -/
def routeOf (defaults : Defaults) (o : String × Method × Operation) : Route :=
  .new o.2.1 o.1 ((Handler.ofOperation? defaults o.1 o.2.1 o.2.2).map (·.id))

/-- The handler that is looked up for an operation is its own. -/
lemma handlerFor?_eq (h : (path, method, operation) ∈ api.operations) :
    Route.handlerFor? (Handler.ofApi api) path method
      = (Handler.ofOperation? api.defaults path method operation).map (·.id) := by
  have hfound : ∀ g ∈ Handler.ofApi api, g.path = path → g.method = method →
      Handler.ofOperation? api.defaults path method operation = some g := by
    intro g hg hpath hmethod
    obtain ⟨p, m, o, hmem, hsome⟩ := mem_ofApi.mp hg
    obtain ⟨rfl, rfl, -, -⟩ := ofOperation?_eq_some hsome
    rw [hpath, hmethod] at hmem hsome
    rw [operation_unique h hmem, hsome]
  rw [Route.handlerFor?]
  cases hfind : (Handler.ofApi api).reverse.find? fun g => g.path == path && g.method == method with
  | some g =>
      have hmem := List.mem_reverse.mp (List.mem_of_find?_eq_some hfind)
      have hkey := List.find?_some hfind
      simp only [Bool.and_eq_true, beq_iff_eq] at hkey
      rw [hfound g hmem hkey.1 hkey.2]
  | none =>
      cases hsome : Handler.ofOperation? api.defaults path method operation with
      | none => rfl
      | some g =>
          have hmem : g ∈ Handler.ofApi api := mem_ofApi.mpr ⟨path, method, operation, h, hsome⟩
          obtain ⟨hpath, hmethod, -, -⟩ := ofOperation?_eq_some hsome
          have hnot := List.find?_eq_none.mp hfind g (List.mem_reverse.mpr hmem)
          exact absurd (by simp [hpath, hmethod]) hnot

/-- **The routing table has one route for every operation**, and it leads to the handler of that
operation. -/
theorem table_perm (api : Api) : (Route.table api (Handler.ofApi api)).Perm
    (api.operations.map (routeOf api.defaults)) := by
  refine (List.mergeSort_perm _ _).trans (List.Perm.of_eq (List.map_congr_left ?_))
  rintro ⟨path, method, operation⟩ hmem
  exact congrArg (Route.new method path) (handlerFor?_eq hmem)

lemma mem_table {r : Route} : r ∈ Route.table api (Handler.ofApi api) ↔
    ∃ o ∈ api.operations, routeOf api.defaults o = r := by
  rw [(table_perm api).mem_iff, List.mem_map]

/-- **A path and method have at most one route.** -/
theorem nodup_table (api : Api) :
    ((Route.table api (Handler.ofApi api)).map fun r => (r.path, r.method)).Nodup := by
  have hkeys := (table_perm api).map fun r => (r.path, r.method)
  rw [List.map_map] at hkeys
  exact hkeys.nodup_iff.mpr (nodup_operations api)

/-- A route with a handler leads to the handler of its path and method. -/
lemma exists_handler_of_mem_table {r : Route} {id : String}
    (hr : r ∈ Route.table api (Handler.ofApi api)) (hid : r.handler = some id) :
    ∃ h ∈ Handler.ofApi api, h.id = id ∧ h.path = r.path ∧ h.method = r.method := by
  obtain ⟨⟨path, method, operation⟩, hmem, rfl⟩ := mem_table.mp hr
  obtain ⟨h, hsome, rfl⟩ := Option.map_eq_some_iff.mp hid
  obtain ⟨hpath, hmethod, -, -⟩ := ofOperation?_eq_some hsome
  exact ⟨h, mem_ofApi.mpr ⟨path, method, operation, hmem, hsome⟩, rfl, hpath, hmethod⟩

/-- The routing table leads to every handler once. -/
lemma filterMap_handler_table (api : Api) :
    ((Route.table api (Handler.ofApi api)).filterMap (·.handler)).Perm
      ((Handler.ofApi api).map (·.id)) := by
  refine ((table_perm api).filterMap _).trans (List.Perm.of_eq ?_)
  rw [Handler.ofApi, List.filterMap_map, List.map_filterMap]
  rfl

/-- Every operation has a handler or is passed through. -/
theorem length_ofApi_add_passthrough (api : Api) :
    (Handler.ofApi api).length + (Route.table api (Handler.ofApi api)).countP Route.isPassthrough
      = (Route.table api (Handler.ofApi api)).length := by
  have hhandlers : (Handler.ofApi api).length
      = api.operations.countP fun o => (routeOf api.defaults o).handler.isSome := by
    rw [Handler.ofApi, List.length_filterMap_eq_countP]
    refine List.countP_congr ?_
    rintro ⟨path, method, operation⟩ -
    simp [routeOf, Route.new]
  have hsplit := List.length_eq_countP_add_countP
    (fun o => (routeOf api.defaults o).handler.isSome) (l := api.operations)
  have hpassthrough : (api.operations.map (routeOf api.defaults)).countP Route.isPassthrough
      = api.operations.countP fun o => decide ¬(routeOf api.defaults o).handler.isSome = true := by
    rw [List.countP_map]
    refine List.countP_congr ?_
    intro o _
    simp [Route.isPassthrough]
  rw [(table_perm api).countP_eq, (table_perm api).length_eq, List.length_map, hhandlers,
    hpassthrough, hsplit]

end WorkerGen
